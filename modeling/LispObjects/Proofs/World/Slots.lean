import LispObjects.Proofs.Action.Slots
import LispObjects.Proofs.Realm.Registration
import LispObjects.Proofs.Symbol.Calls
import LispObjects.Proofs.World.Realms

namespace LispObjects

/-!
# Slots along a run

What the slots of an object hold after any run, in terms of the writes that were made on the way.  A
keyword and the variable of the same name name one slot, although reading under a keyword never makes
the variable and writing under it does.

* `Symbol.slotKey` — what a symbol names as a slot, without any symbol being made for it;
* `World.slotWrites`, `World.slotLog` — the writes of an event and of a run, under the keys as they were
  given;
* `World.OwnSlots` — slots are only written through realms, under the realms' own symbols;
* `World.recordsSlots_run` — the objects hold what was written to them, after every such run;
* `World.slotLaws_run` — what follows for reading slots, and for asking whether there are any.
-/

/-! ### What a key names -/

/-- What a symbol names as a slot. A keyword stands for the variable of its name. -/
def Symbol.slotKey (key : Symbol) : SymbolTable.Key :=
  ⟨key.table, key.name, if key.isKeyword then .vars else key.space⟩

variable {r r' : Realm} {k k' s : Symbol} {object v : Value} {o o' : StandardObject}

/-- Symbols of a realm name the same slots if they are the same, or both variables or keywords of one
    name; symbols of functions and of classes stand for themselves. -/
theorem SymbolTable.WellFormed.slotKey_eq_iff {t : SymbolTable} (ht : t.WellFormed)
    (hk : k ∈ t.symbols) (hk' : k' ∈ t.symbols) :
    k.slotKey = k'.slotKey ↔
      k = k' ∨ k.name = k'.name ∧ k.space ∈ [.vars, .keywords] ∧ k'.space ∈ [.vars, .keywords] := by
  have htable : k.table = k'.table := (ht.table_eq hk).trans (ht.table_eq hk').symm
  constructor
  · intro h
    obtain ⟨-, hname, hspace⟩ := SymbolTable.Key.ext_iff.mp h
    have hname : k.name = k'.name := hname
    by_cases hsame : k.space = k'.space
    · -- a table has one symbol of a name and a namespace
      have hfound := ht.found k hk
      rw [hname, hsame, ht.found k' hk', Option.some.injEq] at hfound
      exact .inl hfound.symm
    · refine .inr ⟨hname, ?_⟩
      cases hs : k.space <;> cases hs' : k'.space <;>
        simp_all [Symbol.slotKey, Symbol.isKeyword]
  · rintro (rfl | ⟨hname, hspace, hspace'⟩)
    · rfl
    · have hvariable : ∀ s : Symbol, s.space ∈ [Namespace.vars, .keywords] →
          s.slotKey = ⟨s.table, s.name, .vars⟩ := by
        intro s hs
        cases hspace : s.space <;> simp_all [Symbol.slotKey, Symbol.isKeyword]
      rw [hvariable k hspace, hvariable k' hspace', htable, hname]

namespace Realm

/-- The key to be read is the symbol that is found for what is named. -/
theorem keyForRead?_eq (hk : r.symbols.find? k.name k.space = some k) :
    Action.keyForRead? r k = r.symbols.find? k.slotKey.name k.slotKey.space := by
  show _ = r.symbols.find? k.name (if k.isKeyword = true then .vars else k.space)
  unfold Action.keyForRead?
  split
  · rfl
  · exact hk.symm

/-- The symbol that is stored is found under its slot key, once the variable is there. -/
theorem HasVariable.find?_slotKey (h : r.HasVariable k)
    (hk : r.symbols.find? k.name k.space = some k) :
    r.symbols.find? k.slotKey.name k.slotKey.space = some (r.slotSymbol k) := by
  show r.symbols.find? k.name (if k.isKeyword = true then .vars else k.space) = _
  by_cases hkey : k.isKeyword = true
  · obtain ⟨s, hs⟩ := h hkey
    rw [if_pos hkey, hs, slotSymbol, if_pos hkey, SymbolTable.intern_of_find? hs]
  · rw [if_neg hkey, hk, slotSymbol_of_not_isKeyword hkey]

end Realm

namespace World

variable {w : World} {events past : List Event} {event : Event} {i : Nat} {op : Operation}
  {key key' : SymbolTable.Key}

/-! ### Symbols of a world -/

/-- The symbol that a world has for a key. -/
def symbol? (w : World) (key : SymbolTable.Key) : Option Symbol :=
  w.realms[key.table]?.bind fun r => r.symbols.find? key.name key.space

/-- A key is looked up in the table of the realm that it belongs to. -/
theorem symbol?_of_realm (hr : w.realms[i]? = some r) (htable : key.table = i) :
    w.symbol? key = r.symbols.find? key.name key.space := by
  rw [symbol?, htable, hr]
  rfl

/-- A symbol that is there is there ever after. -/
theorem symbol?_after (h : w.symbol? key = some s) (event : Event) :
    (w.after event).symbol? key = some s := by
  obtain ⟨before, hbefore, hs⟩ := Option.bind_eq_some_iff.mp h
  obtain ⟨r, hr, hextends⟩ := exists_extends_after hbefore event
  rw [symbol?_of_realm hr rfl]
  exact hextends.symbols _ _ _ hs

/-- Symbols of different keys differ. -/
theorem symbol?_inj (h : (run events).symbol? key = some s)
    (h' : (run events).symbol? key' = some s) : key = key' := by
  -- a symbol tells its key
  have hkey : ∀ key : SymbolTable.Key, (run events).symbol? key = some s →
      key = ⟨s.table, s.name, s.space⟩ := by
    intro key h
    obtain ⟨r, hr, hs⟩ := Option.bind_eq_some_iff.mp h
    obtain ⟨hspace, hname⟩ := SymbolTable.eq_of_find? hs
    have htable := (wellFormed_run hr).symbols.table_eq (SymbolTable.mem_of_find? hs)
    rw [tableId_run hr] at htable
    rw [hspace, hname, htable]
  rw [hkey key h, hkey key' h']

/-! ### Writes of a run -/

/-- The writes of an event, under the keys as they are given. -/
def slotWrites (w : World) : Event → List (Write .slots)
  | .newRealm _ => []
  | .perform i op => (w.image? i).elim [] fun image => op.slotWrites image

/-- All writes of a run, from the oldest to the newest. -/
def slotLog (events : List Event) : List (Write .slots) :=
  log slotWrites events

/-- The event makes an instance or a dynamic variable. -/
def MakesObject (w : World) (event : Event) (o : StandardObject) : Prop :=
  ∃ i op image, event = .perform i op ∧ w.image? i = some image ∧ op.madeObject? image = some o

/-- The object is an instance or a dynamic variable that was made in the run. -/
def MadeObject (events : List Event) (o : StandardObject) : Prop :=
  MadeIn MakesObject events o

end World

/-- The operation writes slots under symbols of the realm, into objects that are there, and not past the
    realm. -/
structure Operation.OwnSlots (image : Image) (op : Operation) : Prop where
  keys : ∀ w ∈ op.slotWrites image, w.key ∈ image.realm.symbols.symbols
  owner : ∀ o, op.slotOwner? = some o → image.heap.slots.Contains o.slots
  through : ∀ o key v, op ≠ .setSlot o key v

namespace Operation

variable {image : Image}

/-- A new dynamic variable has a slot of the realm's own naming. -/
theorem ownSlots_makeDynamic (hn : image.realm.names.FoundIn image.realm.symbols) (v : Value) :
    (makeDynamic v).OwnSlots image where
  keys := List.forall_mem_singleton.mpr (SymbolTable.mem_of_find? hn.value)
  owner := nofun
  through := nofun

/-- A slot is set under a symbol of the realm, in an object that is there. -/
theorem ownSlots_setSlotValue (hk : k ∈ image.realm.symbols.symbols)
    (ho : image.heap.slots.Contains o.slots) (v : Value) :
    (setSlotValue (.object o) k v).OwnSlots image where
  keys := by
    rw [Image.slotWrites_setSlotValue]
    exact List.forall_mem_singleton.mpr hk
  owner := by
    rintro _ ⟨⟩
    exact ho
  through := nofun

/-- Interning names no slot. -/
theorem ownSlots_internName (name : String) (space : Namespace) :
    (internName name space).OwnSlots image where
  keys := nofun
  owner := nofun
  through := nofun

end Operation

namespace World

variable {w : World} {events past : List Event} {event : Event} {i : Nat} {op : Operation}
  {key key' : SymbolTable.Key}

/-- Every operation of the run names slots of its realm, and an object that is there at the time. -/
def OwnSlots (events : List Event) : Prop :=
  ∀ past event, past ++ [event] <+: events → ∀ i op image, event = .perform i op →
    (run past).image? i = some image → op.OwnSlots image

/-- A run under the condition has its earlier parts under it. -/
theorem OwnSlots.earlier {events' : List Event} (h : OwnSlots events') (hevents : events <+: events') :
    OwnSlots events :=
  fun past event hpast => h past event (hpast.trans hevents)

/-- The last event has to keep to the condition, and those before it have to. -/
theorem ownSlots_concat :
    OwnSlots (events ++ [event]) ↔ OwnSlots events ∧ ∀ i op image, event = .perform i op →
      (run events).image? i = some image → op.OwnSlots image :=
  forall_past_concat

/-- There is an image exactly where there is a realm. -/
theorem image?_eq_some_iff {image : Image} :
    w.image? i = some image ↔ ∃ r, w.realms[i]? = some r ∧ ⟨w.heap, r⟩ = image := by
  simp [image?]

/-- A new realm writes no slots. -/
theorem ownSlots_newRealm (config : Config) : OwnSlots [.newRealm config] :=
  forall_past_singleton.mpr (by rintro i op image ⟨⟩)

/-- The image of a realm is that realm and the common heap. -/
theorem image?_of_realm (hr : w.realms[i]? = some r) : w.image? i = some ⟨w.heap, r⟩ := by
  rw [image?, hr]
  rfl

/-- The writes of an operation are those in the image of its realm. -/
theorem slotWrites_perform (hr : w.realms[i]? = some r) (op : Operation) :
    w.slotWrites (.perform i op) = op.slotWrites ⟨w.heap, r⟩ := by
  rw [slotWrites, image?_of_realm hr]
  rfl

/-- Where there is no realm no slot is written. -/
theorem slotWrites_of_none (hr : w.realms[i]? = none) (op : Operation) :
    w.slotWrites (.perform i op) = [] := by
  rw [slotWrites, image?, hr]
  rfl

/-- An event makes one object at most. -/
theorem MakesObject.unique (h : w.MakesObject event o) (h' : w.MakesObject event o') : o = o' := by
  obtain ⟨i, op, image, rfl, himage, ho⟩ := h
  obtain ⟨i', op', image', hevent, himage', ho'⟩ := h'
  cases hevent
  rw [himage, Option.some.injEq] at himage'
  rw [himage', ho', Option.some.injEq] at ho
  exact ho.symm

/-! ### One event -/

/-- What an event does to the slots, in terms of a store with the objects that it makes, and of the
    symbols that stand for the keys given. -/
structure SlotStep (w : World) (event : Event) (base : Store .slots (Bindings Value))
    (stored : Write .slots → Write .slots) : Prop where
  extends_base : w.heap.slots.Extends base
  slots_eq : (w.after event).heap.slots = ((w.slotWrites event).map stored).foldl Store.put base
  contains : ∀ u ∈ w.slotWrites event, base.Contains u.cell
  stored_eq : ∀ u, (stored u).cell = u.cell ∧ (stored u).value = u.value
  symbol? : ∀ u ∈ w.slotWrites event, (w.after event).symbol? u.key.slotKey = some (stored u).key
  made : ∀ o, w.MakesObject event o →
    ¬ w.heap.slots.Contains o.slots ∧ base.Contains o.slots ∧ base.read o.slots = .empty

/-- An event that leaves the slots alone is a step without writes. -/
theorem slotStep_of_slots_eq (hwrites : w.slotWrites event = [])
    (hmakes : ∀ o, ¬ w.MakesObject event o) (hslots : (w.after event).heap.slots = w.heap.slots) :
    w.SlotStep event w.heap.slots id where
  extends_base := .refl _
  slots_eq := by
    rw [hwrites, hslots]
    rfl
  contains := by simp [hwrites]
  stored_eq _ := ⟨rfl, rfl⟩
  symbol? := by simp [hwrites]
  made o ho := absurd ho (hmakes o)

/-- An operation of a realm stores slots under symbols of the realm's own table. -/
theorem exists_slotStep_perform (hr : (run events).realms[i]? = some r)
    (hop : op.OwnSlots ⟨(run events).heap, r⟩) :
    ∃ base stored, (run events).SlotStep (.perform i op) base stored := by
  have hwell := wellFormed_run hr
  obtain ⟨base, hstep⟩ : ∃ base, Image.SlotStep ⟨(run events).heap, r⟩ op base :=
    Image.exists_slotStep hwell.names hop.through hop.owner
  refine ⟨base, (Image.perform ⟨(run events).heap, r⟩ op).2.realm.stored, ?_⟩
  refine
    { extends_base := hstep.extends_base
      slots_eq := ?_
      contains := ?_
      stored_eq := fun _ => ⟨rfl, rfl⟩
      symbol? := ?_
      made := ?_ }
  · rw [heap_perform hr, slotWrites_perform hr]
    exact hstep.slots_eq
  · rw [slotWrites_perform hr]
    exact hstep.contains
  · intro u hu
    rw [slotWrites_perform hr] at hu
    -- the key is of the realm's own table, so that is where the symbol for it is found
    have hmem := hop.keys u hu
    have htable : u.key.slotKey.table = i :=
      (hwell.symbols.table_eq hmem).trans (tableId_run hr)
    have hfound := (Image.extends_perform ⟨(run events).heap, r⟩ op).symbols _ _ _
      (hwell.symbols.found _ hmem)
    rw [symbol?_of_realm (realm_perform_self hr op) htable,
      (hstep.hasVariable u hu).find?_slotKey hfound]
    rfl
  · rintro o ⟨_, _, image, hevent, himage, ho⟩
    cases hevent
    rw [image?_of_realm hr, Option.some.injEq] at himage
    rw [← himage] at ho
    exact hstep.made o ho

/-- Every event that writes the slots of realms through the realms is a step. -/
theorem exists_slotStep (hown : ∀ i op image, event = .perform i op →
      (run events).image? i = some image → op.OwnSlots image) :
    ∃ base stored, (run events).SlotStep event base stored := by
  cases event with
  | newRealm config =>
    refine ⟨_, _, slotStep_of_slots_eq rfl ?_ ?_⟩
    · rintro o ⟨i, op, image, hevent, -⟩
      cases hevent
    -- a new realm makes no objects, and puts on its root only
    · obtain ⟨frames, hheap⟩ := Realm.exists_heap_boot config (run events).realms.size (run events).heap
      rw [heap_newRealm, hheap]
  | perform i op =>
    cases hr : (run events).realms[i]? with
    | none =>
      refine ⟨_, _, slotStep_of_slots_eq (slotWrites_of_none hr op) ?_ (by rw [perform_of_none hr])⟩
      rintro o ⟨i, op, image, hevent, himage, -⟩
      cases hevent
      rw [image?, hr] at himage
      cases himage
    | some r => exact exists_slotStep_perform hr (hown i op _ rfl (image?_of_realm hr))

/-! ### Runs -/

/-- The objects of a run hold what was written to them. -/
structure RecordsSlots (events : List Event) : Prop where
  cells : ∀ u ∈ slotLog events, (run events).heap.slots.Contains u.cell
  objects : ∀ o, MadeObject events o → (run events).heap.slots.Contains o.slots
  keys : ∀ u ∈ slotLog events, ∃ s, (run events).symbol? u.key.slotKey = some s
  get?_iff : ∀ o s v, MadeObject events o →
    (((run events).heap.slotsOf o).get? s = some v ↔
      LastWrite (fun u => u.cell = o.slots ∧ (run events).symbol? u.key.slotKey = some s)
        (slotLog events) v)

/-- What the object held before the writes of an event, in terms of the symbols that there are after
    it. -/
theorem RecordsSlots.get?_base_iff {base : Store .slots (Bindings Value)}
    {stored : Write .slots → Write .slots} (h : RecordsSlots events)
    (hstep : (run events).SlotStep event base stored) (ho : MadeObject (events ++ [event]) o)
    (s : Symbol) (v : Value) :
    (base.read o.slots).get? s = some v ↔
      LastWrite (fun u => u.cell = o.slots ∧ ((run events).after event).symbol? u.key.slotKey = some s)
        (slotLog events) v := by
  rcases madeIn_concat.mp ho with hold | hmakes
  · rw [hstep.extends_base.read_eq _ (h.objects o hold)]
    refine (h.get?_iff o s v hold).trans (lastWrite_congr fun u hu => ?_)
    -- the keys of the log have their symbols already
    obtain ⟨t, ht⟩ := h.keys u hu
    rw [ht, symbol?_after ht]
  · obtain ⟨hnew, -, hempty⟩ := hstep.made o hmakes
    rw [hempty, Bindings.get?_empty]
    refine iff_of_false nofun fun hlast => ?_
    obtain ⟨u, hu, hcell, -⟩ := exists_lastWrite_iff.mp ⟨v, hlast⟩
    exact hnew (hcell ▸ h.cells u hu)

/-- The last event of a run adds its writes at the end. -/
theorem slotLog_concat (events : List Event) (event : Event) :
    slotLog (events ++ [event]) = slotLog events ++ (run events).slotWrites event :=
  log_concat slotWrites events event

/-- Before the first event there are no objects. -/
theorem recordsSlots_nil : RecordsSlots [] := by
  have hlog : slotLog [] = [] := rfl
  have hnone : ∀ o, ¬ MadeObject [] o := fun _ => not_madeIn_nil
  refine ⟨?_, fun o ho => absurd ho (hnone o), ?_, fun o _ _ ho => absurd ho (hnone o)⟩
  · simp [hlog]
  · simp [hlog]

/-- **A step** is recorded. -/
theorem RecordsSlots.concat {base : Store .slots (Bindings Value)}
    {stored : Write .slots → Write .slots} (h : RecordsSlots events)
    (hstep : (run events).SlotStep event base stored) : RecordsSlots (events ++ [event]) := by
  have hcontains : ∀ r, (run (events ++ [event])).heap.slots.Contains r ↔ base.Contains r := by
    intro r
    rw [run_concat, hstep.slots_eq, Store.contains_foldl_put]
  refine ⟨?_, ?_, ?_, ?_⟩
  · -- cells: none is taken away, and the event writes those of the base store
    intro u hu
    rw [slotLog_concat, List.mem_append] at hu
    rw [hcontains]
    rcases hu with hu | hu
    · exact hstep.extends_base.contains (h.cells u hu)
    · exact hstep.contains u hu
  · -- objects: a new one is in the base store
    intro o ho
    rw [hcontains]
    rcases madeIn_concat.mp ho with hold | hmakes
    · exact hstep.extends_base.contains (h.objects o hold)
    · exact (hstep.made o hmakes).2.1
  · -- keys: a write under a keyword has made the variable
    intro u hu
    rw [slotLog_concat, List.mem_append] at hu
    rw [run_concat]
    rcases hu with hu | hu
    · obtain ⟨s, hs⟩ := h.keys u hu
      exact ⟨s, symbol?_after hs event⟩
    · exact ⟨_, hstep.symbol? u hu⟩
  · -- reads: what the base store gives, and then the writes of the event
    intro o s v ho
    rw [slotLog_concat, run_concat, Heap.slotsOf, hstep.slots_eq]
    refine Store.get?_read_foldl_put_iff hstep.contains hstep.stored_eq ?_
      (h.get?_base_iff hstep ho s) v
    intro u hu
    rw [hstep.symbol? u hu, Option.some.injEq]

/-- **Slots.** After every run the objects that were made hold what was written to them. -/
theorem recordsSlots_run (hown : OwnSlots events) : RecordsSlots events := by
  induction events using List.reverseRecOn with
  | nil => exact recordsSlots_nil
  | append_singleton events event ih =>
    obtain ⟨hbefore, hlast⟩ := ownSlots_concat.mp hown
    obtain ⟨base, stored, hstep⟩ := exists_slotStep hlast
    exact (ih hbefore).concat hstep

/-- A run may make dynamic variables. -/
theorem OwnSlots.makeDynamic (h : OwnSlots events) (i : Nat) (v : Value) :
    OwnSlots (events ++ [.perform i (.makeDynamic v)]) := by
  refine ownSlots_concat.mpr ⟨h, ?_⟩
  rintro _ _ image ⟨⟩ himage
  obtain ⟨r, hr, rfl⟩ := image?_eq_some_iff.mp himage
  exact Operation.ownSlots_makeDynamic (wellFormed_run hr).names v

/-- A run may intern names. -/
theorem OwnSlots.internName (h : OwnSlots events) (i : Nat) (name : String) (space : Namespace) :
    OwnSlots (events ++ [.perform i (.internName name space)]) := by
  refine ownSlots_concat.mpr ⟨h, ?_⟩
  rintro _ _ image ⟨⟩ -
  exact Operation.ownSlots_internName name space

/-- A run may set slots of the objects that were made. -/
theorem OwnSlots.setSlotValue (h : OwnSlots events) (ho : MadeObject events o)
    (hr : (run events).realms[i]? = some r) (hk : k ∈ r.symbols.symbols) (v : Value) :
    OwnSlots (events ++ [.perform i (.setSlotValue (.object o) k v)]) := by
  refine ownSlots_concat.mpr ⟨h, ?_⟩
  rintro _ _ image ⟨⟩ himage
  rw [image?_of_realm hr, Option.some.injEq] at himage
  rw [← himage]
  exact Operation.ownSlots_setSlotValue hk ((recordsSlots_run h).objects o ho) v

/-- **Identity.** Objects that were made are the same if their slots are. -/
theorem MadeObject.eq_of_slots (hown : OwnSlots events) (h : MadeObject events o)
    (h' : MadeObject events o') (hslots : o.slots = o'.slots) : o = o' := by
  have hevent : ∀ (w : World) event o o', w.MakesObject event o → w.MakesObject event o' → o = o' :=
    fun _ _ _ _ ho ho' => ho.unique ho'
  refine h.eq_of_key hevent ?_ h' hslots
  intro past event o o' hpast ho ho' hslots
  obtain ⟨hbefore, hlast⟩ := ownSlots_concat.mp (hown.earlier hpast)
  obtain ⟨base, stored, hstep⟩ := exists_slotStep hlast
  have hin := (recordsSlots_run hbefore).objects o ho
  rw [hslots] at hin
  exact (hstep.made o' ho').1 hin

/-! ### Reading -/

/-- For every key that was written under there is a symbol. -/
theorem RecordsSlots.exists_find? (h : RecordsSlots events) (hr : (run events).realms[i]? = some r)
    {u : Write .slots} (hu : u ∈ slotLog events) (htable : u.key.table = i) :
    ∃ x, r.symbols.find? u.key.slotKey.name u.key.slotKey.space = some x := by
  obtain ⟨x, hx⟩ := h.keys u hu
  rw [symbol?_of_realm hr htable] at hx
  exact ⟨x, hx⟩

/-- What is read is given by a log of writes, if the symbols of the keys have what it says. -/
theorem get?_keyForRead?_iff_of_log {log : List (Write .slots)}
    (hr : (run events).realms[i]? = some r) (hk : k ∈ r.symbols.symbols)
    (hkeys : ∀ u ∈ log, ∃ s, (run events).symbol? u.key.slotKey = some s)
    (hget : ∀ s, (run events).symbol? k.slotKey = some s →
      (((run events).heap.slotsOf o).get? s = some v ↔
        LastWrite (fun u => u.cell = o.slots ∧ (run events).symbol? u.key.slotKey = some s) log v)) :
    (Action.keyForRead? r k).bind ((run events).heap.slotsOf o).get? = some v ↔
      LastWrite (fun u => u.cell = o.slots ∧ u.key.slotKey = k.slotKey) log v := by
  have hwell := (wellFormed_run hr).symbols
  have htable : k.slotKey.table = i := (hwell.table_eq hk).trans (tableId_run hr)
  rw [Realm.keyForRead?_eq (hwell.found k hk), ← symbol?_of_realm hr htable]
  cases hs : (run events).symbol? k.slotKey with
  | none =>
    -- nothing was written under such a key, or there would be a symbol for it
    refine iff_of_false nofun fun hlast => ?_
    obtain ⟨u, hu, -, hkey⟩ := exists_lastWrite_iff.mp ⟨v, hlast⟩
    obtain ⟨s, hs'⟩ := hkeys u hu
    rw [hkey, hs] at hs'
    cases hs'
  | some s =>
    refine (hget s hs).trans (lastWrite_congr fun u _ => and_congr_right fun _ => ?_)
    exact ⟨fun hu => symbol?_inj hu hs, fun hu => hu ▸ hs⟩

/-- What is read is what was last written under a key that names the same slot. -/
theorem RecordsSlots.get?_keyForRead?_iff (h : RecordsSlots events)
    (hr : (run events).realms[i]? = some r) (ho : MadeObject events o)
    (hk : k ∈ r.symbols.symbols) :
    (Action.keyForRead? r k).bind ((run events).heap.slotsOf o).get? = some v ↔
      LastWrite (fun u => u.cell = o.slots ∧ u.key.slotKey = k.slotKey) (slotLog events) v :=
  get?_keyForRead?_iff_of_log hr hk h.keys fun s _ => h.get?_iff o s v ho

/-- The value of a slot is what is read. -/
theorem answer_slotValue (hr : w.realms[i]? = some r)
    (h : (Action.keyForRead? r k).bind (w.heap.slotsOf o).get? = some v) :
    (w.perform i (.slotValue (.object o) k)).1 = some (.ok (.value v)) := by
  have hrun : (Operation.slotValue (.object o) k).action.runOn ⟨w.heap, r⟩ =
      (.ok (.value v), ⟨w.heap, r⟩) := by
    rw [Operation.action, Action.runOn_bind, Action.runOn_slotValue_object, h]
    rfl
  rw [perform_of_realm hr, Image.perform_of_ok hrun]

/-- If there is nothing to be read in a slot, the failure carries the object and the key. -/
theorem answer_slotValue_unbound (hr : w.realms[i]? = some r) (hn : r.names.FoundIn r.symbols)
    (h : (Action.keyForRead? r k).bind (w.heap.slotsOf o).get? = none) :
    ∃ condition after,
      w.perform i (.slotValue (.object o) k) = (some (.error condition), after) ∧
        condition.object.classId = BuiltinClass.unboundSlotError ∧
        condition.slot? r after.heap "object" = some (.object o) ∧
        condition.slot? r after.heap "slot-name" = some (.symbol k) := by
  have hrun : (Operation.slotValue (.object o) k).action.runOn ⟨w.heap, r⟩ =
      (.error (.unboundSlot (.object o) k), ⟨w.heap, r⟩) := by
    rw [Operation.action, Action.runOn_bind, Action.runOn_slotValue_object, h]
  obtain ⟨hobject, hname⟩ := Realm.slot?_unboundSlot hn (.object o) k w.heap
  rw [perform_of_realm hr, Image.perform_of_error hrun]
  exact ⟨_, _, rfl, rfl, hobject, hname⟩

/-- A slot has the value exactly if that is what is read. -/
theorem answer_slotValue_iff_read (hr : w.realms[i]? = some r) (hn : r.names.FoundIn r.symbols) :
    (w.perform i (.slotValue (.object o) k)).1 = some (.ok (.value v)) ↔
      (Action.keyForRead? r k).bind (w.heap.slotsOf o).get? = some v := by
  refine ⟨fun hanswer => ?_, answer_slotValue hr⟩
  cases hread : (Action.keyForRead? r k).bind (w.heap.slotsOf o).get? with
  | some v' =>
    rw [answer_slotValue hr hread] at hanswer
    cases hanswer
    rfl
  | none =>
    obtain ⟨condition, after, hfail, -⟩ := answer_slotValue_unbound hr hn hread
    rw [hfail] at hanswer
    cases hanswer

/-- Of other values there is nothing to be read. -/
theorem answer_slotValue_of_not_object (hr : w.realms[i]? = some r)
    (h : ∀ o, object ≠ .object o) (k : Symbol) :
    ∃ condition, (w.perform i (.slotValue object k)).1 = some (.error condition) := by
  have hrun : (Operation.slotValue object k).action.runOn ⟨w.heap, r⟩ =
      (.error (.notA .standardObject object), ⟨w.heap, r⟩) := by
    rw [Operation.action, Action.runOn_bind, Action.runOn_slotValue_of_not_object h]
  rw [perform_of_realm hr, Image.perform_of_error hrun]
  exact ⟨_, rfl⟩

/-- **Bound slots** are those whose value can be asked for, whatever the value is whose slot is meant. -/
theorem isSlotBound_cases (hr : w.realms[i]? = some r) (hn : r.names.FoundIn r.symbols)
    (object : Value) (k : Symbol) :
    (Action.isSlotBound r w.heap object k = true ∧
        ∃ v, (w.perform i (.slotValue object k)).1 = some (.ok (.value v))) ∨
      (Action.isSlotBound r w.heap object k = false ∧
        ∃ condition, (w.perform i (.slotValue object k)).1 = some (.error condition)) := by
  by_cases hobject : ∃ o, object = .object o
  · obtain ⟨o, rfl⟩ := hobject
    rw [Action.isSlotBound_object]
    cases hread : (Action.keyForRead? r k).bind (w.heap.slotsOf o).get? with
    | some v => exact .inl ⟨rfl, v, answer_slotValue hr hread⟩
    | none =>
      obtain ⟨condition, after, hfail, -⟩ := answer_slotValue_unbound hr hn hread
      exact .inr ⟨rfl, condition, by rw [hfail]⟩
  · have hnot : ∀ o, object ≠ .object o := not_exists.mp hobject
    exact .inr ⟨Action.isSlotBound_of_not_object hnot r w.heap k,
      answer_slotValue_of_not_object hr hnot k⟩

/-- To ask for a slot leaves the realm as it is. -/
theorem realms_slotValue (hr : w.realms[i]? = some r) (object : Value) (k : Symbol) :
    (w.after (.perform i (.slotValue object k))).realms[i]? = some r := by
  have hlooks : Action.Keeps Eq (Operation.slotValue object k).action :=
    (Action.Keeps.query _).bind fun _ => .pure _
  have hrealm : (Image.perform ⟨w.heap, r⟩ (.slotValue object k)).2.realm = r := by
    rw [Image.realm_perform, ← hlooks]
  rw [realm_perform_self hr, hrealm]

/-! ### Writing -/

/-- In a world too, to set a slot of an object is one write. -/
theorem slotWrites_setSlotValue (hr : w.realms[i]? = some r) (o : StandardObject) (k : Symbol)
    (v : Value) : w.slotWrites (.perform i (.setSlotValue (.object o) k v)) = [⟨o.slots, k, v⟩] := by
  rw [slotWrites_perform hr, Image.slotWrites_setSlotValue]

/-! ### What holds of slots -/

/-- What the slots of objects are after a run, as the realm `r` with the number `i` sees them. -/
structure SlotLaws (events : List Event) (i : Nat) (r : Realm) : Prop where
  /-- The value of a slot is what was last written to the object under a key that names the slot. -/
  value_iff : ∀ o k v, MadeObject events o → k ∈ r.symbols.symbols →
    (((run events).perform i (.slotValue (.object o) k)).1 = some (.ok (.value v)) ↔
      LastWrite (fun u => u.cell = o.slots ∧ u.key.slotKey = k.slotKey) (slotLog events) v)
  /-- Where nothing was written there is no slot. -/
  unbound : ∀ o k, MadeObject events o → k ∈ r.symbols.symbols →
    (∀ u ∈ slotLog events, u.cell = o.slots → u.key.slotKey ≠ k.slotKey) →
      ∃ condition after,
        (run events).perform i (.slotValue (.object o) k) = (some (.error condition), after) ∧
          condition.object.classId = BuiltinClass.unboundSlotError ∧
          condition.slot? r after.heap "object" = some (.object o) ∧
          condition.slot? r after.heap "slot-name" = some (.symbol k)
  /-- A slot is bound exactly if it has a value to be asked for, for values of every kind. -/
  isSlotBound_eq_true_iff : ∀ object k,
    Action.isSlotBound r (run events).heap object k = true ↔
      ∃ v, ((run events).perform i (.slotValue object k)).1 = some (.ok (.value v))
  isSlotBound_eq_false_iff : ∀ object k,
    Action.isSlotBound r (run events).heap object k = false ↔
      ∃ condition, ((run events).perform i (.slotValue object k)).1 = some (.error condition)
  /-- Only a keyword and the variable of its name are different symbols for one slot. -/
  slotKey_eq_iff : ∀ k k', k ∈ r.symbols.symbols → k' ∈ r.symbols.symbols →
    (k.slotKey = k'.slotKey ↔
      k = k' ∨ k.name = k'.name ∧ k.space ∈ [.vars, .keywords] ∧ k'.space ∈ [.vars, .keywords])
  /-- Objects that were made do not share slots. -/
  unique : ∀ o o', MadeObject events o → MadeObject events o' → o.slots = o'.slots → o = o'
  /-- To set a slot is one write; -/
  slotWrites_eq : ∀ o k v,
    (run events).slotWrites (.perform i (.setSlotValue (.object o) k v)) = [⟨o.slots, k, v⟩]
  /-- and whatever comes next changes no slot but those that it writes. -/
  spared : ∀ event o k, OwnSlots (events ++ [event]) → MadeObject events o →
    k ∈ r.symbols.symbols →
    (∀ u ∈ (run events).slotWrites event, u.cell = o.slots → u.key.slotKey ≠ k.slotKey) → ∀ v,
      (((run events).after event).perform i (.slotValue (.object o) k)).1 = some (.ok (.value v)) ↔
        ((run events).perform i (.slotValue (.object o) k)).1 = some (.ok (.value v))
  /-- To ask for a slot makes no symbol: the realm stays as it is. Whether a slot is bound is read off a
      realm and a heap, so asking that changes nothing either. -/
  asked : ∀ object k,
    ((run events).after (.perform i (.slotValue object k))).realms[i]? = some r

/-- The value of a slot after a run that writes slots through realms only. -/
theorem answer_slotValue_iff (hown : OwnSlots events) (hr : (run events).realms[i]? = some r)
    (ho : MadeObject events o) (hk : k ∈ r.symbols.symbols) :
    ((run events).perform i (.slotValue (.object o) k)).1 = some (.ok (.value v)) ↔
      LastWrite (fun u => u.cell = o.slots ∧ u.key.slotKey = k.slotKey) (slotLog events) v :=
  (answer_slotValue_iff_read hr (wellFormed_run hr).names).trans
    ((recordsSlots_run hown).get?_keyForRead?_iff hr ho hk)

/-- Where nothing was written there is nothing to be read. -/
theorem keyForRead?_eq_none (hown : OwnSlots events) (hr : (run events).realms[i]? = some r)
    (ho : MadeObject events o) (hk : k ∈ r.symbols.symbols)
    (hnone : ∀ u ∈ slotLog events, u.cell = o.slots → u.key.slotKey ≠ k.slotKey) :
    (Action.keyForRead? r k).bind ((run events).heap.slotsOf o).get? = none := by
  rw [Option.eq_none_iff_forall_ne_some]
  intro v hread
  rw [(recordsSlots_run hown).get?_keyForRead?_iff hr ho hk] at hread
  obtain ⟨u, hu, hcell, hkey⟩ := exists_lastWrite_iff.mp ⟨v, hread⟩
  exact hnone u hu hcell hkey

/-- **Changes.** An event that does not write the slot leaves its value as it is. -/
theorem answer_slotValue_after_iff (hown : OwnSlots (events ++ [event]))
    (hr : (run events).realms[i]? = some r) (ho : MadeObject events o) (hk : k ∈ r.symbols.symbols)
    (hother : ∀ u ∈ (run events).slotWrites event, u.cell = o.slots → u.key.slotKey ≠ k.slotKey) :
    (((run events).after event).perform i (.slotValue (.object o) k)).1 = some (.ok (.value v)) ↔
      ((run events).perform i (.slotValue (.object o) k)).1 = some (.ok (.value v)) := by
  have hbefore := hown.earlier (List.prefix_append _ _)
  -- the key is still a symbol of the realm, and both values are given by the log
  obtain ⟨after, hafter, hextends⟩ := exists_extends_after hr event
  have hk' : k ∈ after.symbols.symbols :=
    SymbolTable.mem_of_find? (hextends.symbols _ _ _ ((wellFormed_run hr).symbols.found k hk))
  rw [← run_concat] at hafter ⊢
  rw [answer_slotValue_iff hown hafter (ho.later (List.prefix_append _ _)) hk',
    answer_slotValue_iff hbefore hr ho hk, slotLog_concat]
  exact lastWrite_append_of_neg fun u hu h => hother u hu h.1 h.2

/-- **Slots along a run.** After every run that writes slots through the realms, under symbols of theirs,
    in whatever order and with whatever else in between, all of it holds in every realm. -/
theorem slotLaws_run (hown : OwnSlots events) (hr : (run events).realms[i]? = some r) :
    SlotLaws events i r := by
  have hwell := wellFormed_run hr
  have hcases := fun object k => isSlotBound_cases hr hwell.names object k
  refine
    { value_iff := fun o k v ho hk => answer_slotValue_iff hown hr ho hk
      unbound := fun o k ho hk hnone =>
        answer_slotValue_unbound hr hwell.names (keyForRead?_eq_none hown hr ho hk hnone)
      isSlotBound_eq_true_iff := ?_
      isSlotBound_eq_false_iff := ?_
      slotKey_eq_iff := fun k k' hk hk' => hwell.symbols.slotKey_eq_iff hk hk'
      unique := fun o o' ho ho' => ho.eq_of_slots hown ho'
      slotWrites_eq := slotWrites_setSlotValue hr
      spared := fun event o k hnew ho hk hother v => answer_slotValue_after_iff hnew hr ho hk hother
      asked := realms_slotValue hr }
  -- a slot is bound exactly if a read of it is answered
  · intro object k
    rcases hcases object k with ⟨htrue, v, hv⟩ | ⟨hfalse, condition, hfail⟩
    · exact iff_of_true htrue ⟨v, hv⟩
    · rw [hfalse, hfail]
      simp
  · intro object k
    rcases hcases object k with ⟨htrue, v, hv⟩ | ⟨hfalse, condition, hfail⟩
    · rw [htrue, hv]
      simp
    · exact iff_of_true hfalse ⟨condition, hfail⟩

/-- A realm makes a dynamic variable and a keyword, and sets a slot under the keyword. -/
def keywordSlot (o : StandardObject) (key : Symbol) : List Event :=
  [.newRealm {}, .perform 0 (.makeDynamic .void), .perform 0 (.internName "x" .keywords),
    .perform 0 (.setSlotValue (.object o) key .nil)]

/-- An interned symbol is there afterwards. -/
theorem exists_find?_internName (hr : w.realms[i]? = some r) (name : String) (space : Namespace) :
    ∃ r' s, (w.after (.perform i (.internName name space))).realms[i]? = some r' ∧
      r'.symbols.find? name space = some s :=
  ⟨_, _, realm_perform_self hr _, SymbolTable.find?_intern _ _ _⟩

/-- A new dynamic variable is made. -/
theorem exists_makesObject_makeDynamic (hr : w.realms[i]? = some r) (v : Value) :
    ∃ o, w.MakesObject (.perform i (.makeDynamic v)) o :=
  ⟨_, i, _, _, rfl, image?_of_realm hr, rfl⟩

/-- What was just set under a keyword is the value of the variable's slot. -/
theorem exists_answer_of_keyword (hown : OwnSlots events) (ho : MadeObject events o)
    (hr : (run events).realms[i]? = some r) (hk : k ∈ r.symbols.symbols)
    (hspace : k.space = .keywords) (v : Value) :
    let set := events ++ [.perform i (.setSlotValue (.object o) k v)]
    ∃ x r', (run set).realms[i]? = some r' ∧ x ∈ r'.symbols.symbols ∧ x.space = .vars ∧
      ((run set).perform i (.slotValue (.object o) x)).1 = some (.ok (.value v)) := by
  intro set
  have hset : OwnSlots set := hown.setSlotValue ho hr hk v
  have hlog : slotLog set = slotLog events ++ [⟨o.slots, k, v⟩] := by
    rw [slotLog_concat, slotWrites_setSlotValue hr]
  obtain ⟨r', hr', hextends⟩ := exists_extends_after hr (.perform i (.setSlotValue (.object o) k v))
  rw [← run_concat] at hr'
  have hwell := (wellFormed_run hr).symbols
  have hwell' := (wellFormed_run hr').symbols
  have hk' := SymbolTable.mem_of_find? (hextends.symbols _ _ _ (hwell.found k hk))
  have hmem : ⟨o.slots, k, v⟩ ∈ slotLog set := by simp [hlog]
  -- the variable is there because it was written
  obtain ⟨x, hx⟩ := (recordsSlots_run hset).exists_find? hr' hmem
    ((hwell.table_eq hk).trans (tableId_run hr))
  have hvariable : k.slotKey.space = .vars := by
    simp [Symbol.slotKey, Symbol.isKeyword, hspace]
  obtain ⟨hxspace, hxname⟩ := SymbolTable.eq_of_find? hx
  rw [hvariable] at hxspace
  have hsame : x.slotKey = k.slotKey :=
    (hwell'.slotKey_eq_iff (SymbolTable.mem_of_find? hx) hk').mpr
      (.inr ⟨hxname, by simp [hxspace], by simp [hspace]⟩)
  refine ⟨x, r', hr', SymbolTable.mem_of_find? hx, hxspace, ?_⟩
  rw [answer_slotValue_iff hset hr' (ho.later (List.prefix_append _ _)) (SymbolTable.mem_of_find? hx),
    hlog]
  exact (lastWrite_concat_of_pos ⟨rfl, hsame.symm⟩).mpr rfl

/-- What was set under a keyword is found under the variable, which is another symbol. -/
theorem slotLaws_of_keyword :
    ∃ o key x r, OwnSlots (keywordSlot o key) ∧ MadeObject (keywordSlot o key) o ∧
      (run (keywordSlot o key)).realms[0]? = some r ∧ SlotLaws (keywordSlot o key) 0 r ∧
      key.space = .keywords ∧ x.space = .vars ∧ x ∈ r.symbols.symbols ∧
      ((run (keywordSlot o key)).perform 0 (.slotValue (.object o) x)).1 = some (.ok (.value .nil)) := by
  obtain ⟨g, hg, -⟩ := graph?_run_newRealm {}
  obtain ⟨r, hr, -⟩ := graph?_eq_some_iff.mp hg
  -- the object is what the second event makes, and the keyword what the third one does
  obtain ⟨o, ho⟩ := exists_makesObject_makeDynamic hr .void
  obtain ⟨r₁, hr₁, -⟩ := exists_extends_after hr (.perform 0 (.makeDynamic .void))
  rw [← run_concat] at hr₁
  obtain ⟨r₂, key, hr₂, hkey⟩ := exists_find?_internName hr₁ "x" .keywords
  rw [← run_concat] at hr₂
  have hmade := MadeIn.later (madeIn_concat.mpr (.inr ho))
    (List.prefix_append _ [.perform 0 (.internName "x" .keywords)])
  have hbefore := ((ownSlots_newRealm {}).makeDynamic 0 .void).internName 0 "x" .keywords
  have hmem := SymbolTable.mem_of_find? hkey
  have hspace : key.space = .keywords := (SymbolTable.eq_of_find? hkey).1
  have hsplit : keywordSlot o key = [.newRealm {}] ++ [.perform 0 (.makeDynamic .void)] ++
      [.perform 0 (.internName "x" .keywords)] ++
      [.perform 0 (.setSlotValue (.object o) key .nil)] := rfl
  have hown := hbefore.setSlotValue hmade hr₂ hmem .nil
  obtain ⟨x, r₃, hr₃, hx, hxspace, hanswer⟩ :=
    exists_answer_of_keyword hbefore hmade hr₂ hmem hspace .nil
  rw [← hsplit] at hown hr₃ hanswer
  refine ⟨o, key, x, r₃, hown, ?_, hr₃, slotLaws_run hown hr₃, hspace, hxspace, hx, hanswer⟩
  rw [hsplit]
  exact hmade.later (List.prefix_append _ _)

end World

end LispObjects
