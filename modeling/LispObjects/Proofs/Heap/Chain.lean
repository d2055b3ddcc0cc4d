import LispObjects.Heap.List
import LispObjects.Proofs.Heap.Growth

namespace LispObjects.Heap

/-!
# Chains of pairs

A list that is made is found in the heap, and is found in it ever after if pairs are only added.

* `IsChain h v items tail` — the pairs that `v` leads to hold the items, and end in `tail`;
* `isChain_chain`, `IsChain.extend` — a chain that is made is one, and stays one while the heap grows;
* `IsChain.elements` — its items are what is read back.
-/

variable {h h' : Heap} {v tail : Value} {items : List Value} {a b : Value}

/-- From `v` on the pairs of the heap hold the items, and the last of them leads to `tail`. -/
def IsChain (h : Heap) : Value → List Value → Value → Prop
  | v, [], tail => v = tail
  | v, item :: items, tail =>
    ∃ p, v = .pair p ∧ h.pairs.Contains p ∧ h.car p = item ∧ h.IsChain (h.cdr p) items tail

/-- What is added to the heap leaves a chain as it is. -/
theorem IsChain.extend (hchain : h.IsChain v items tail) (hext : h.pairs.Extends h'.pairs) :
    h'.IsChain v items tail := by
  induction items generalizing v with
  | nil => exact hchain
  | cons item items ih =>
    obtain ⟨p, rfl, hp, hcar, hrest⟩ := hchain
    have hread : h'.pairs.read p = h.pairs.read p := hext.read_eq p hp
    refine ⟨p, rfl, hext.contains hp, ?_, ?_⟩
    · rw [car, hread]
      exact hcar
    · rw [cdr, hread]
      exact ih hrest

/-- A new pair in front of a chain makes it longer. -/
theorem IsChain.cons (hchain : h.IsChain v items tail) (item : Value) :
    (h.cons item v).2.IsChain (h.cons item v).1 (item :: items) tail := by
  have hnew : (h.cons item v).2.pairs.read (h.pairs.alloc ⟨item, v⟩).1 = ⟨item, v⟩ :=
    Store.read_alloc_self _ _
  refine ⟨(h.pairs.alloc ⟨item, v⟩).1, rfl, ?_, congrArg Pair.car hnew, ?_⟩
  · show h.pairs.size < (h.pairs.alloc ⟨item, v⟩).2.size
    rw [Store.size_alloc]
    omega
  · have hcdr : (h.cons item v).2.cdr (h.pairs.alloc ⟨item, v⟩).1 = v := congrArg Pair.cdr hnew
    rw [hcdr]
    exact hchain.extend (h.grows_cons item v).pairs

/-- **Making a chain** makes one. -/
theorem isChain_chain (h : Heap) (items : List Value) (tail : Value) :
    (h.chain items tail).2.IsChain (h.chain items tail).1 items tail := by
  induction items with
  | nil => rfl
  | cons item items ih => exact ih.cons item

/-- A list takes a pair for each of its items. -/
theorem size_pairs_chain (h : Heap) (items : List Value) (tail : Value) :
    (h.chain items tail).2.pairs.size = h.pairs.size + items.length := by
  induction items with
  | nil => rfl
  | cons item items ih =>
    show (Store.alloc (h.chain items tail).2.pairs _).2.size = _
    rw [Store.size_alloc, ih, List.length_cons]
    omega

/-- A walk that is long enough passes the whole chain. -/
theorem IsChain.spineUpTo (hchain : h.IsChain v items .nil) {count : Nat}
    (hcount : items.length ≤ count) : h.spineUpTo count v = (items, .nil) := by
  induction items generalizing v count with
  | nil =>
    obtain rfl : v = .nil := hchain
    cases count <;> rfl
  | cons item items ih =>
    obtain ⟨p, rfl, -, rfl, hrest⟩ := hchain
    rw [List.length_cons] at hcount
    obtain ⟨count, rfl⟩ : ∃ n, count = n + 1 := ⟨count - 1, by omega⟩
    rw [Heap.spineUpTo, ih hrest (by omega)]

/-- **Reading back.** The elements of a proper list are its items, if the heap has room for them. -/
theorem IsChain.elements (hchain : h.IsChain v items .nil) (hroom : items.length ≤ h.pairs.size) :
    h.elements v = .ok items := by
  have hspine : h.spine v = (items, .nil) := hchain.spineUpTo (by omega)
  rw [Heap.elements, hspine]

end LispObjects.Heap
