import LispObjects.Proofs.Symbol.Interning
import Mathlib.Data.Finset.Card
import Mathlib.Data.List.Induction
import Mathlib.Logic.Function.Basic

namespace LispObjects.SymbolTable

/-!
# Calls on symbol tables

Any number of tables, and calls on them in any order; the symbols that come back are passed between
the tables at will.

* `Call`, `Call.perform` — a call, its answer, and the tables after it;
* `Key.find?_perform` — all that one call does to what is found;
* `Returned` — a call of a run gave a symbol;
* `lawful_run` — symbols are the same exactly if they were made of the same key, and the other laws
  of symbols that hold in every run.
-/

/-- What a symbol is made of: a table, and a name and a namespace in it. -/
@[ext] structure Key where
  table : Nat
  name : String
  space : Namespace
  deriving DecidableEq

/-- A call on one of the tables. -/
inductive Call where
  /-- The symbol of a key is asked for, and made if there is none. -/
  | intern (k : Key)
  /-- The symbol of a key is looked up. -/
  | find (k : Key)
  /-- A symbol of any table is converted to a namespace of this one. -/
  | convert (table : Nat) (s : Symbol) (space : Namespace)

variable {tables : Nat → SymbolTable} {calls past later : List Call} {c c' : Call} {k : Key}
  {i : Nat} {s s' : Symbol} {space : Namespace}

namespace Call

/-- The key that the call is about. -/
def key : Call → Key
  | intern k => k
  | find k => k
  | convert table s space => ⟨table, s.name, space⟩

/-- Whether the call makes a symbol if there is none. -/
def interns : Call → Bool
  | intern _ => true
  | find _ => false
  | convert _ _ _ => true

/-- The answer of a call, and the tables after it. -/
def perform (tables : Nat → SymbolTable) : Call → Option Symbol × (Nat → SymbolTable)
  | intern k =>
    let (s, t) := (tables k.table).intern k.name k.space
    (some s, Function.update tables k.table t)
  | find k => ((tables k.table).find? k.name k.space, tables)
  | convert table s space =>
    let (s', t) := (tables table).convert s space
    (some s', Function.update tables table t)

/-- Every call that makes symbols is an interning of its key. -/
theorem perform_of_interns (h : c.interns) :
    c.perform tables =
      (some ((tables c.key.table).intern c.key.name c.key.space).1,
        Function.update tables c.key.table
          ((tables c.key.table).intern c.key.name c.key.space).2) := by
  cases c with
  | intern k => rfl
  | find k => cases h
  | convert table s space => rfl

/-- Every other call is a lookup of its key. -/
theorem perform_of_not_interns (h : ¬ c.interns) :
    c.perform tables = ((tables c.key.table).find? c.key.name c.key.space, tables) := by
  cases c with
  | intern k => exact absurd rfl h
  | find k => rfl
  | convert table s space => exact absurd rfl h

end Call

/-! ### One call -/

/-- What a lookup of the key finds. -/
def Key.find? (k : Key) (tables : Nat → SymbolTable) : Option Symbol :=
  (tables k.table).find? k.name k.space

/-- A call keeps what every table has if interning keeps it. -/
theorem perform_keeps {P : Nat → SymbolTable → Prop} (h : ∀ i, P i (tables i))
    (hkeep : ∀ i t name space, P i t → P i (SymbolTable.intern t name space).2) (c : Call) (i : Nat) :
    P i ((c.perform tables).2 i) := by
  by_cases hc : c.interns
  · rw [Call.perform_of_interns hc]
    dsimp only
    by_cases hi : i = c.key.table
    · subst hi
      rw [Function.update_self]
      exact hkeep _ _ _ _ (h _)
    · rw [Function.update_of_ne hi]
      exact h i
  · rw [Call.perform_of_not_interns hc]
    exact h i

/-- **A call changes one lookup.** A call that makes symbols changes what is found for its own key,
    which is then its answer; nothing else is found that was not found before. -/
theorem Key.find?_perform (k : Key) (tables : Nat → SymbolTable) (c : Call) :
    k.find? (c.perform tables).2 =
      if c.interns ∧ k = c.key then (c.perform tables).1 else k.find? tables := by
  by_cases hc : c.interns
  · rw [Call.perform_of_interns hc, Key.find?]
    dsimp only
    by_cases htable : k.table = c.key.table
    · -- in one table the key is the name and the namespace, as for a single interning
      have hkey : k = c.key ↔ k.name = c.key.name ∧ k.space = c.key.space := by
        rw [Key.ext_iff]
        exact and_iff_right htable
      simp only [hc, hkey, true_and]
      rw [htable, Function.update_self, find?_intern_eq, Key.find?, htable]
    · have hkey : k ≠ c.key := fun h => htable (congrArg Key.table h)
      rw [if_neg fun h => hkey h.2, Function.update_of_ne htable, Key.find?]
  · rw [if_neg fun h => hc h.1, Call.perform_of_not_interns hc]

/-- The answer of a call is what is found for its key afterwards. -/
theorem Call.find?_key_perform (c : Call) (tables : Nat → SymbolTable) :
    c.key.find? (c.perform tables).2 = (c.perform tables).1 := by
  by_cases hc : c.interns
  · rw [Key.find?_perform, if_pos ⟨hc, rfl⟩]
  · rw [Call.perform_of_not_interns hc, Key.find?]

/-- What is found before a call is found after it. -/
theorem Key.find?_perform_of_find? (h : k.find? tables = some s) (c : Call) :
    k.find? (c.perform tables).2 = some s := by
  rw [Key.find?_perform]
  split
  · next hc =>
    obtain ⟨hc, rfl⟩ := hc
    rw [Call.perform_of_interns hc, intern_of_find? h]
  · exact h

/-! ### Runs -/

/-- The tables after a run of calls; all of them are empty at first. -/
def run (calls : List Call) : Nat → SymbolTable :=
  calls.foldl (fun tables c => (c.perform tables).2) empty

/-- The last call of a run is made on the tables that the others leave. -/
@[simp] theorem run_concat (calls : List Call) (c : Call) :
    run (calls ++ [c]) = (c.perform (run calls)).2 := by
  simp [run]

/-- A table has after every run what the empty table has and interning keeps. -/
theorem run_induction {P : Nat → SymbolTable → Prop} (hempty : ∀ i, P i (empty i))
    (hkeep : ∀ i t name space, P i t → P i (SymbolTable.intern t name space).2)
    (calls : List Call) : ∀ i, P i (run calls i) := by
  induction calls using List.reverseRecOn with
  | nil => exact hempty
  | append_singleton calls c ih =>
    rw [run_concat]
    exact perform_keeps ih hkeep c

/-- A table keeps its place. -/
@[simp] theorem id_run (calls : List Call) (i : Nat) : (run calls i).id = i :=
  run_induction (P := fun i t => t.id = i) (fun _ => rfl)
    (fun _ t name space h => (id_intern t name space).trans h) calls i

/-- Every table stays well-formed. -/
theorem wellFormed_run (calls : List Call) (i : Nat) : (run calls i).WellFormed :=
  run_induction (P := fun _ t => t.WellFormed) wellFormed_empty
    (fun _ _ name space h => h.intern name space) calls i

/-- What is found is found for ever. -/
theorem Key.find?_run_of_prefix (hfind : k.find? (run past) = some s) (h : past <+: later) :
    k.find? (run later) = some s := by
  obtain ⟨rest, rfl⟩ := h
  induction rest using List.reverseRecOn with
  | nil => rwa [List.append_nil]
  | append_singleton rest c ih =>
    rw [← List.append_assoc, run_concat]
    exact Key.find?_perform_of_find? ih c

/-- A symbol that is found was made of the key. -/
theorem Key.eq_of_find?_run (h : k.find? (run calls) = some s) :
    s ∈ (run calls k.table).symbols ∧ k = ⟨s.table, s.name, s.space⟩ := by
  have hwell := wellFormed_run calls k.table
  obtain ⟨hmem, hname, hspace⟩ := hwell.find?_eq_some_iff.mp h
  refine ⟨hmem, Key.ext ?_ hname.symm hspace.symm⟩
  rw [hwell.table_eq hmem, id_run]

/-! ### The symbols of a run -/

/-- A call of the run gave the symbol. -/
def Returned (calls : List Call) (c : Call) (s : Symbol) : Prop :=
  ∃ past, past ++ [c] <+: calls ∧ (c.perform (run past)).1 = some s

/-- What was returned was asked for. -/
theorem Returned.mem (h : Returned calls c s) : c ∈ calls := by
  obtain ⟨past, hpast, -⟩ := h
  exact hpast.subset (by simp)

/-- What was returned before was returned. -/
theorem Returned.of_prefix (h : Returned past c s) (hlater : past <+: later) :
    Returned later c s := by
  obtain ⟨first, hfirst, hanswer⟩ := h
  exact ⟨first, hfirst.trans hlater, hanswer⟩

/-- The symbol that a call gave is found under its key ever after. -/
theorem Returned.find?_run (h : Returned calls c s) : c.key.find? (run calls) = some s := by
  obtain ⟨past, hpast, hanswer⟩ := h
  refine Key.find?_run_of_prefix ?_ hpast
  rw [run_concat, Call.find?_key_perform, hanswer]

/-- A call that makes symbols always gives one. -/
theorem exists_returned (hc : c ∈ calls) (h : c.interns) : ∃ s, Returned calls c s := by
  obtain ⟨past, rest, rfl⟩ := List.append_of_mem hc
  refine ⟨((run past c.key.table).intern c.key.name c.key.space).1, past, ⟨rest, by simp⟩, ?_⟩
  rw [Call.perform_of_interns h]

/-- **What is found was made in the run.** By induction on the run: the last call finds more than the
    run before it only under its own key, and there it gives what is found. -/
theorem find?_run_iff :
    k.find? (run calls) = some s ↔ ∃ c, c.interns ∧ c.key = k ∧ Returned calls c s := by
  constructor
  · intro h
    induction calls using List.reverseRecOn with
    | nil => cases h
    | append_singleton calls c ih =>
      rw [run_concat, Key.find?_perform] at h
      split at h
      · -- the last call has made it, or found it as an earlier call had made it
        next hc => exact ⟨c, hc.1, hc.2.symm, calls, List.prefix_rfl, h⟩
      · obtain ⟨c', hc', hkey, hreturned⟩ := ih h
        exact ⟨c', hc', hkey, hreturned.of_prefix (List.prefix_append _ _)⟩
  · rintro ⟨c, -, rfl, h⟩
    exact h.find?_run

/-- A symbol is found exactly if a call interned it. -/
theorem isSome_find?_run_iff :
    (k.find? (run calls)).isSome ↔ ∃ c ∈ calls, c.interns ∧ c.key = k := by
  rw [Option.isSome_iff_exists]
  constructor
  · rintro ⟨s, h⟩
    obtain ⟨c, hc, hkey, hreturned⟩ := find?_run_iff.mp h
    exact ⟨c, hreturned.mem, hc, hkey⟩
  · rintro ⟨c, hmem, hc, rfl⟩
    obtain ⟨s, h⟩ := exists_returned hmem hc
    exact ⟨s, h.find?_run⟩

/-- A symbol carries the key that it was made of. -/
theorem Returned.key_eq (h : Returned calls c s) : c.key = ⟨s.table, s.name, s.space⟩ :=
  (Key.eq_of_find?_run h.find?_run).2

/-- **Identity.** Symbols are the same exactly if they were made of the same key. -/
theorem Returned.eq_iff (h : Returned calls c s) (h' : Returned calls c' s') :
    s = s' ↔ c.key = c'.key := by
  constructor
  · rintro rfl
    rw [h.key_eq, h'.key_eq]
  · intro hsame
    have hfind := h.find?_run
    rw [hsame, h'.find?_run] at hfind
    exact (Option.some.inj hfind).symm

/-- The place of a symbol is enough to tell it from the others. -/
theorem Returned.place_iff (h : Returned calls c s) (h' : Returned calls c' s') :
    s.table = s'.table ∧ s.index = s'.index ↔ c.key = c'.key := by
  rw [← h.eq_iff h']
  constructor
  · rintro ⟨htable, hindex⟩
    have hmem := (Key.eq_of_find?_run h.find?_run).1
    have hmem' := (Key.eq_of_find?_run h'.find?_run).1
    have hk : c.key.table = c'.key.table := by rw [h.key_eq, h'.key_eq, htable]
    rw [← hk] at hmem'
    exact (wellFormed_run calls c.key.table).eq_of_index_eq hmem hmem' hindex
  · rintro rfl
    exact ⟨rfl, rfl⟩

/-- A symbol of the name, whatever its table, is converted to the symbol that a call gave. -/
theorem Returned.convert_eq (h : Returned calls c s) (hname : s'.name = c.key.name) :
    (run calls c.key.table).convert s' c.key.space = (s, run calls c.key.table) := by
  rw [convert, hname]
  exact intern_of_find? h.find?_run

/-! ### Sizes -/

/-- The keys that calls of the run made symbols of in a table. -/
def internedKeys (calls : List Call) (i : Nat) : Finset Key :=
  ((calls.filter fun c => c.interns && c.key.table == i).map Call.key).toFinset

/-- The keys that were interned in a table, each from some call. -/
theorem mem_internedKeys :
    k ∈ internedKeys calls i ↔ (∃ c ∈ calls, c.interns ∧ c.key = k) ∧ k.table = i := by
  simp only [internedKeys, List.mem_toFinset, List.mem_map, List.mem_filter, Bool.and_eq_true,
    beq_iff_eq]
  constructor
  · rintro ⟨c, ⟨hmem, hc, rfl⟩, rfl⟩
    exact ⟨⟨c, hmem, hc, rfl⟩, rfl⟩
  · rintro ⟨⟨c, hmem, hc, rfl⟩, rfl⟩
    exact ⟨c, ⟨hmem, hc, rfl⟩, rfl⟩

/-- The last call of a run adds its own key if it makes symbols. -/
theorem internedKeys_concat (calls : List Call) (c : Call) (i : Nat) :
    internedKeys (calls ++ [c]) i =
      if c.interns ∧ c.key.table = i then insert c.key (internedKeys calls i)
      else internedKeys calls i := by
  unfold internedKeys
  rw [List.filter_append, List.map_append, List.toFinset_append, Finset.union_comm,
    List.filter_singleton]
  by_cases h : c.interns ∧ c.key.table = i
  · simp [h]
  · have hc : (c.interns && c.key.table == i) = false := by simpa using h
    simp [h, hc]

/-- A call makes a table larger by one if it makes a symbol that is not there. -/
theorem size_perform (tables : Nat → SymbolTable) (c : Call) (i : Nat) :
    ((c.perform tables).2 i).size =
      if (c.interns ∧ c.key.table = i) ∧ ¬ (c.key.find? tables).isSome then (tables i).size + 1
      else (tables i).size := by
  by_cases hc : c.interns
  · rw [Call.perform_of_interns hc]
    dsimp only
    by_cases hi : c.key.table = i
    · subst hi
      rw [Function.update_self, size_intern, Key.find?]
      cases ((tables c.key.table).find? c.key.name c.key.space).isSome <;> simp [hc]
    · rw [Function.update_of_ne fun h => hi h.symm, if_neg fun h => hi h.1.2]
  · rw [Call.perform_of_not_interns hc, if_neg fun h => hc h.1.1]

/-- **A table's size.** It counts the different keys that symbols were made of. By induction on the
    run: the last call makes the table larger exactly if its key is new. -/
theorem size_run (calls : List Call) (i : Nat) :
    (run calls i).size = (internedKeys calls i).card := by
  induction calls using List.reverseRecOn with
  | nil => rfl
  | append_singleton calls c ih =>
    rw [run_concat, size_perform, internedKeys_concat, ih]
    by_cases hc : c.interns ∧ c.key.table = i
    · have hold : (c.key.find? (run calls)).isSome ↔ c.key ∈ internedKeys calls i := by
        rw [isSome_find?_run_iff, mem_internedKeys, and_iff_left hc.2]
      by_cases hmem : c.key ∈ internedKeys calls i
      · rw [if_pos hc, Finset.insert_eq_of_mem hmem, if_neg fun h => h.2 (hold.mpr hmem)]
      · rw [if_pos hc, Finset.card_insert_of_notMem hmem, if_pos ⟨hc, fun h => hmem (hold.mp h)⟩]
    · rw [if_neg hc, if_neg fun h => hc h.1]

/-! ### The laws -/

/-- What holds of the symbols of a run. -/
structure Lawful (calls : List Call) : Prop where
  /-- Symbols are the same exactly if their keys are. -/
  eq_iff : ∀ c c' s s', Returned calls c s → Returned calls c' s' → (s = s' ↔ c.key = c'.key)
  /-- Already the place of a symbol tells it from the others. -/
  place_iff : ∀ c c' s s', Returned calls c s → Returned calls c' s' →
    (s.table = s'.table ∧ s.index = s'.index ↔ c.key = c'.key)
  /-- A symbol carries its table, name and namespace. -/
  key_eq : ∀ c s, Returned calls c s → c.key = ⟨s.table, s.name, s.space⟩
  /-- A symbol is found for ever. -/
  find?_later : ∀ c s later, Returned calls c s → calls <+: later → c.key.find? (run later) = some s
  /-- What is found is what a call made. -/
  find?_iff : ∀ k s,
    k.find? (run calls) = some s ↔ ∃ c, c.interns ∧ c.key = k ∧ Returned calls c s
  /-- Something is found exactly if a call made it. -/
  isSome_find?_iff : ∀ k, (k.find? (run calls)).isSome ↔ ∃ c ∈ calls, c.interns ∧ c.key = k
  /-- A lookup answers what is found, and changes nothing. -/
  perform_find : ∀ k, (Call.find k).perform (run calls) = (k.find? (run calls), run calls)
  /-- A table's size is the count of the different keys that symbols were made of in it. -/
  size_eq : ∀ i, (run calls i).size = (internedKeys calls i).card
  /-- A conversion is an interning of the name. -/
  perform_convert : ∀ i s space,
    (Call.convert i s space).perform (run calls) = (Call.intern ⟨i, s.name, space⟩).perform (run calls)
  /-- Converting what was converted gives it back. -/
  convert_convert : ∀ i s space s', Returned calls (.convert i s space) s' →
    (run calls i).convert s' space = (s', run calls i)
  /-- Converting a symbol of the table away and back gives the symbol. -/
  convert_back : ∀ c s space s', Returned calls c s →
    Returned calls (.convert c.key.table s space) s' →
    (run calls c.key.table).convert s' s.space = (s, run calls c.key.table)

/-- **Symbols are lawful.** After every run of calls on any number of tables, the symbols that were
    given are the same exactly if they were made of the same table, name and namespace. -/
theorem lawful_run (calls : List Call) : Lawful calls where
  eq_iff := fun c c' s s' h h' => h.eq_iff h'
  place_iff := fun c c' s s' h h' => h.place_iff h'
  key_eq := fun c s h => h.key_eq
  find?_later := fun c s later h hlater => Key.find?_run_of_prefix h.find?_run hlater
  find?_iff := fun k s => find?_run_iff
  isSome_find?_iff := fun k => isSome_find?_run_iff
  perform_find := fun k => rfl
  size_eq := size_run calls
  perform_convert := fun i s space => rfl
  convert_convert := by
    intro i s space s' h
    have hname : s'.name = s.name := congrArg Key.name h.key_eq.symm
    exact h.convert_eq hname
  convert_back := by
    intro c s space s' h haway
    -- on the way the symbol keeps the name that it was made of
    have hname : s'.name = c.key.name := by
      rw [h.key_eq]
      exact congrArg Key.name haway.key_eq.symm
    have hback := h.convert_eq hname
    rwa [congrArg Key.space h.key_eq] at hback

end LispObjects.SymbolTable
