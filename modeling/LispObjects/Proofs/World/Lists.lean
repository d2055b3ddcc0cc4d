import LispObjects.Proofs.Action.Pairs
import LispObjects.Proofs.Heap.NewChain
import LispObjects.Proofs.Realm.Registration
import LispObjects.Proofs.World.Instances

namespace LispObjects

/-!
# Lists in a run

What the operations on lists make of a chain of pairs, in a world that any run has led to, and what
becomes of their results afterwards.

* `Operation.ReadsList` — the operations that read a list, and what they make of its items;
* `World.keepsPair_run` — a pair is as it was until a half of it is replaced;
* `World.MakesList` — an operation makes a list of new pairs, which holds its items as long as no half of
  these pairs is replaced, whatever is done to others;
* `World.ListLaws`, `World.listLaws_run` — which lists are read, what is made of them and what is reported
  of the others, for every chain that ends.
-/

variable {v : Value} {op : Operation} {make : List Value → Heap → Answer × Heap} {h : Heap} {r : Realm}
  {p : Ref .pair}

/-- The operation reads the list `v`, and `make` is what it makes of the items and the heap. -/
inductive Operation.ReadsList (v : Value) : Operation → (List Value → Heap → Answer × Heap) → Prop where
  | length : ReadsList v (.length v) fun items h => (.count items.length, h)
  | copyList : ReadsList v (.copyList v) fun items h =>
    (.value (h.chain items .nil).1, (h.chain items .nil).2)
  | reverse : ReadsList v (.reverse v) fun items h =>
    (.value (h.chain items.reverse .nil).1, (h.chain items.reverse .nil).2)
  | append (back : Value) : ReadsList v (.append v back) fun items h =>
    (.value (h.chain items back).1, (h.chain items back).2)

namespace Operation.ReadsList

/-- If there are items the operation makes of them what it makes. -/
theorem runOn_ok (hop : ReadsList v op make) {items : List Value} (hread : h.elements v = .ok items) :
    op.action.runOn ⟨h, r⟩ = (.ok (make items h).1, ⟨(make items h).2, r⟩) := by
  cases hop <;>
    simp only [Operation.action, Action.elements, Action.reverse, Action.append, Action.list, Heap.list,
      Action.runOn_bind, Action.runOn_query, Action.runOn_onHeap, Action.runOn_pure, hread]

/-- If there are no items the operation fails as the reading does. -/
theorem runOn_error (hop : ReadsList v op make) {f : Fault} (hread : h.elements v = .error f) :
    op.action.runOn ⟨h, r⟩ = (.error f, ⟨h, r⟩) := by
  cases hop <;>
    simp only [Operation.action, Action.elements, Action.reverse, Action.append, Action.runOn_bind,
      Action.runOn_query, hread]

/-- It only makes the heap grow. -/
theorem grows (hop : ReadsList v op make) (items : List Value) (h : Heap) : h.Grows (make items h).2 := by
  cases hop with
  | length => exact .refl h
  | copyList => exact h.grows_chain _ _
  | reverse => exact h.grows_chain _ _
  | append back => exact h.grows_chain _ _

/-- The lists that are read are checked. -/
theorem checks (hop : ReadsList v op make) : op.Checks := by
  cases hop <;> exact trivial

end Operation.ReadsList

namespace World

variable {w : World} {events : List Event} {i : Nat} {event : Event}

/-! ### Pairs along a run -/

/-- The event replaces a half of the pair. -/
def Event.Sets (p : Ref .pair) : Event → Prop
  | .newRealm _ => False
  | .perform _ op => op.Sets p

/-- An event that sets neither half of a pair leaves it. -/
theorem keepsPair_after (hp : w.heap.pairs.Contains p) (hevent : ¬ event.Sets p) :
    w.heap.KeepsPair (w.after event).heap p := by
  cases event with
  | newRealm config =>
    -- a new realm makes frames and no pairs
    have hpairs : (w.after (.newRealm config)).heap.pairs = w.heap.pairs := by
      obtain ⟨frames, hheap⟩ := Realm.exists_heap_boot config w.realms.size w.heap
      rw [heap_newRealm, hheap]
    rw [Heap.KeepsPair, hpairs]
    exact ⟨hp, rfl⟩
  | perform i op =>
    cases hr : w.realms[i]? with
    | none =>
      rw [perform_of_none hr]
      exact ⟨hp, rfl⟩
    | some r =>
      rw [heap_perform hr]
      exact Image.keepsPair_perform ⟨w.heap, r⟩ hp hevent

/-- **Pairs along a run.** Until a half of it is replaced a pair is as it was. -/
theorem keepsPair_run {past rest : List Event} (hp : (run past).heap.pairs.Contains p)
    (hrest : ∀ event ∈ rest, ¬ event.Sets p) :
    (run past).heap.KeepsPair (run (past ++ rest)).heap p := by
  induction rest using List.reverseRecOn with
  | nil =>
    rw [List.append_nil]
    exact ⟨hp, rfl⟩
  | append_singleton rest event ih =>
    have hkept := ih fun event hevent => hrest event (by simp [hevent])
    rw [← List.append_assoc, run_concat]
    exact hkept.trans (keepsPair_after hkept.1 (hrest event (by simp)))

/-! ### Lists that are made -/

/-- The operation answers with a list of the items in front of `tail`.  Its pairs are new, and whatever
happens after that, as long as no half of one of them is replaced, it holds the items, and behind them is
what is behind `tail` by then. -/
def MakesList (events : List Event) (i : Nat) (op : Operation) (items : List Value) (tail : Value) :
    Prop :=
  ∃ x after, (run events).perform i op = (some (.ok (.value x)), after) ∧
    ∀ rest, (∀ event ∈ rest, ∀ p, (run events).heap.NewPair after.heap p → ¬ event.Sets p) →
      let later := (run (events ++ [.perform i op] ++ rest)).heap
      (run events).heap.NewChain later x items tail ∧
        ∀ more last, later.Passes x (items ++ more) last ↔ later.Passes tail more last

/-- An operation that adds a chain of pairs to the heap, and nothing else, makes a list. -/
theorem makesList_of_runOn {items : List Value} {tail : Value} (hr : (run events).realms[i]? = some r)
    (hrun : op.action.runOn ⟨(run events).heap, r⟩ =
      (.ok (.value ((run events).heap.chain items tail).1),
        ⟨((run events).heap.chain items tail).2, r⟩)) :
    MakesList events i op items tail := by
  obtain ⟨after, hperform, hheap, -⟩ := perform_of_runOn_ok hr hrun
  refine ⟨_, after, hperform, fun rest hrest => ?_⟩
  have hafter : (run (events ++ [.perform i op])).heap = ((run events).heap.chain items tail).2 := by
    rw [run_concat, World.after, hperform, hheap]
  have hmade := (run events).heap.newChain_chain items tail
  -- later events may set other pairs; those of the new list stay as long as none of them is set
  have hlater : (run events).heap.NewChain (run (events ++ [.perform i op] ++ rest)).heap
      ((run events).heap.chain items tail).1 items tail := by
    refine hmade.congr fun p hp => ?_
    rw [hheap] at hrest
    rw [← hafter] at hp ⊢
    exact keepsPair_run hp.1 fun event hevent => hrest event hevent p (hafter ▸ hp)
  exact ⟨hlater, fun more last => hlater.passes_append_iff⟩

/-! ### All operations on a list -/

/-- What is read from the chain that begins at `v`, what is made of it, and what is reported. -/
structure ListLaws (events : List Event) (i : Nat) (v : Value) : Prop where
  /-- The chain ends in a value that is no pair. -/
  ends : ∃ items tail, (run events).heap.Passes v items tail ∧ ∀ p, tail ≠ .pair p
  /-- If that is `nil` the elements are the items, -/
  elements_iff : ∀ items, (run events).heap.elements v = .ok items ↔ (run events).heap.Passes v items .nil
  length : ∀ items, (run events).heap.Passes v items .nil →
    ((run events).perform i (.length v)).1 = some (.ok (.count items.length))
  copyList : ∀ items, (run events).heap.Passes v items .nil → MakesList events i (.copyList v) items .nil
  reverse : ∀ items, (run events).heap.Passes v items .nil →
    MakesList events i (.reverse v) items.reverse .nil
  append : ∀ items, (run events).heap.Passes v items .nil →
    ∀ back, MakesList events i (.append v back) items back
  /-- and if it is not `nil` it is blamed for being no list. -/
  improper : ∀ items tail, (run events).heap.Passes v items tail → (∀ p, tail ≠ .pair p) → tail ≠ .nil →
    (run events).heap.elements v = .error (.notA .list tail) ∧
      ∀ op make, Operation.ReadsList v op make → (run events).FailsBlaming i op tail (.builtIn .list)
  /-- A list can be made of any items, and has them as its elements. -/
  chain : ∀ items tail, MakesList events i (.chain items tail) items tail
  elements_list : ∀ items,
    ((run events).heap.list items).2.elements ((run events).heap.list items).1 = .ok items
  /-- An element is the item at the index, wherever the chain ends, -/
  element : ∀ items tail, (run events).heap.Passes v items tail → ∀ n x, items[n]? = some x →
    ((run events).perform i (.element v n)).1 = some (.ok (.value x))
  /-- and if there are not as many items the end is blamed for being no pair. -/
  element_beyond : ∀ items tail, (run events).heap.Passes v items tail → (∀ p, tail ≠ .pair p) →
    ∀ n, items.length ≤ n → (run events).FailsBlaming i (.element v n) tail (.builtIn .cons)
  /-- No cell that was there is changed. -/
  grows : ∀ op make, Operation.ReadsList v op make →
    (run events).heap.Grows ((run events).after (.perform i op)).heap
  grows_element : ∀ n, (run events).heap.Grows ((run events).after (.perform i (.element v n))).heap
  grows_list : ∀ items, (run events).heap.Grows ((run events).heap.list items).2

/-- What an action leaves if it answers, and the report of its fault if it fails, is all there is. -/
theorem grows_after_of_runOn {result : Except Fault Answer} {middle : Heap} (hr : w.realms[i]? = some r)
    (hrun : op.action.runOn ⟨w.heap, r⟩ = (result, ⟨middle, r⟩)) (hgrows : w.heap.Grows middle) :
    w.heap.Grows (w.after (.perform i op)).heap := by
  rw [heap_perform hr]
  cases result with
  | ok answer =>
    rw [Image.perform_of_ok hrun]
    exact hgrows
  | error f =>
    rw [Image.perform_of_error hrun]
    exact hgrows.trans (middle.grows_report r f)

/-- A list is made as the heap makes it. -/
theorem runOn_chain (h : Heap) (r : Realm) (items : List Value) (tail : Value) :
    (Operation.chain items tail).action.runOn ⟨h, r⟩ =
      (.ok (.value (h.chain items tail).1), ⟨(h.chain items tail).2, r⟩) := by
  simp only [Operation.action, Action.runOn_bind, Action.runOn_onHeap, Action.runOn_pure]

/-- An item is read as the heap reads it. -/
theorem runOn_element (h : Heap) (r : Realm) (v : Value) (n : Nat) :
    (Operation.element v n).action.runOn ⟨h, r⟩ = ((h.element v n).map .value, ⟨h, r⟩) := by
  simp only [Operation.action, Action.element, Action.runOn_bind, Action.runOn_query]
  cases h.element v n <;> rfl

/-- **Lists along a run.** All of this holds of every chain that ends, in every realm that is ever
reached. -/
theorem listLaws_run (hr : (run events).realms[i]? = some r) (hends : (run events).heap.ChainEnds v) :
    ListLaws events i v := by
  -- the spine is read with one step more than there are pairs, and a chain that ends needs no more
  have hspine := (run events).heap.passes_spineUpTo ((run events).heap.pairs.size + 1) v
  have hread {items : List Value} (hpass : (run events).heap.Passes v items .nil) :
      (run events).heap.elements v = .ok items := (Heap.elements_eq_ok_iff hends).mpr hpass
  constructor
  case ends =>
    exact ⟨_, _, hspine, Heap.spine_snd_ne_pair hends⟩
  case elements_iff =>
    intro items
    exact Heap.elements_eq_ok_iff hends
  case length =>
    intro items hpass
    obtain ⟨after, hperform, -⟩ := perform_of_runOn_ok hr (Operation.ReadsList.length.runOn_ok (hread hpass))
    rw [hperform]
  case copyList =>
    intro items hpass
    exact makesList_of_runOn hr (Operation.ReadsList.copyList.runOn_ok (hread hpass))
  case reverse =>
    intro items hpass
    exact makesList_of_runOn hr (Operation.ReadsList.reverse.runOn_ok (hread hpass))
  case append =>
    intro items hpass back
    exact makesList_of_runOn hr ((Operation.ReadsList.append back).runOn_ok (hread hpass))
  case improper =>
    intro items tail hpass htail hnil
    have herror : (run events).heap.elements v = .error (.notA .list tail) :=
      (Heap.elements_eq_error_iff hends).mpr ⟨items, tail, hpass, htail, hnil, rfl⟩
    exact ⟨herror, fun op make hop => failsBlaming_of_runOn hr hop.checks (hop.runOn_error herror)⟩
  case chain =>
    intro items tail
    exact makesList_of_runOn hr (runOn_chain _ r items tail)
  case elements_list =>
    intro items
    have hmade := (run events).heap.isChain_chain items .nil
    refine hmade.elements ?_
    -- there is a pair for each item, so the new heap has room for the walk
    rw [Heap.size_pairs_chain]
    omega
  case element =>
    intro items tail hpass n x hx
    have hrun := runOn_element (run events).heap r v n
    rw [hpass.element_eq_ok hx] at hrun
    obtain ⟨after, hperform, -⟩ := perform_of_runOn_ok hr hrun
    rw [hperform]
  case element_beyond =>
    intro items tail hpass htail n hn
    have hrun := runOn_element (run events).heap r v n
    rw [hpass.element_eq_error htail hn] at hrun
    exact failsBlaming_of_runOn hr trivial hrun
  case grows =>
    intro op make hop
    cases helements : (run events).heap.elements v with
    | ok items => exact grows_after_of_runOn hr (hop.runOn_ok helements) (hop.grows items _)
    | error f => exact grows_after_of_runOn hr (hop.runOn_error helements) (.refl _)
  case grows_element =>
    intro n
    exact grows_after_of_runOn hr (runOn_element _ r v n) (.refl _)
  case grows_list =>
    intro items
    exact Heap.grows_chain _ items .nil

/-- A realm that makes a list of two items. -/
def madeList : List Event :=
  [.newRealm {}, .perform 0 (.chain [.void, .boolean true] .nil)]

/-- The list is read, and reversed. -/
theorem listLaws_madeList :
    ∃ r v, (run madeList).realms[0]? = some r ∧ (run madeList).heap.ChainEnds v ∧
      ListLaws madeList 0 v ∧ MakesList madeList 0 (.reverse v) [.boolean true, .void] .nil := by
  have hsplit : madeList = [.newRealm {}] ++ [.perform 0 (.chain [.void, .boolean true] .nil)] := rfl
  obtain ⟨after, hperform, hheap, hafter⟩ :=
    perform_of_runOn_ok (realm_run_newRealm {}) (runOn_chain _ _ [.void, .boolean true] .nil)
  have hrun : run madeList = after := by
    rw [hsplit, run_concat, World.after, hperform]
  rw [← hrun] at hheap hafter
  have hmade : (run madeList).heap = ((run [.newRealm {}]).heap.chain [.void, .boolean true] .nil).2 :=
    hheap
  have hchain := (run [.newRealm {}]).heap.isChain_chain [.void, .boolean true] .nil
  rw [← hmade] at hchain
  have hfinite := hchain.isFinite (by simp [Heap.isFinite_of_ne_pair])
    (Heap.isFinite_of_ne_pair (by simp))
  have hlaws := listLaws_run hafter hfinite.chainEnds
  exact ⟨_, _, hafter, hfinite.chainEnds, hlaws, hlaws.reverse _ hchain.passes⟩

end World

end LispObjects
