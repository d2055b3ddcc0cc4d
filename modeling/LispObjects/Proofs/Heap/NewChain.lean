import LispObjects.Proofs.Heap.Walks

namespace LispObjects.Heap

/-!
# Chains of new pairs

A chain whose pairs were all made after some time, in front of a tail that may be older.

* `Heap.NewPair` — a pair that one heap has and an older one has not;
* `Heap.NewChain` — from a value on, pairs that an older heap has not hold the items;
* `newChain_chain` — so is every chain that is made;
* `NewChain.congr` — the chain is there as long as the new pairs hold what they hold;
* `NewChain.passes_append_iff` — what is behind it is what is behind its tail.
-/

variable {old h h' : Heap} {v tail last : Value} {items more : List Value} {p : Ref .pair}

/-- The pair was made since the heap was `old`. -/
def NewPair (old h : Heap) (p : Ref .pair) : Prop :=
  h.pairs.Contains p ∧ ¬ old.pairs.Contains p

/-- From `v` on, pairs that are not in `old` hold the items, and the last of them leads to `tail`. -/
inductive NewChain (old h : Heap) : Value → List Value → Value → Prop where
  | stop (v : Value) : NewChain old h v [] v
  | step {p : Ref .pair} {items : List Value} {tail : Value} (hp : old.NewPair h p) :
    NewChain old h (h.cdr p) items tail → NewChain old h (.pair p) (h.car p :: items) tail

/-- Such a chain depends on new pairs only. -/
theorem NewChain.congr (hchain : NewChain old h v items tail)
    (hkept : ∀ p, old.NewPair h p → h'.pairs.Contains p ∧ h'.pairs.read p = h.pairs.read p) :
    NewChain old h' v items tail := by
  induction hchain with
  | stop v => exact .stop v
  | @step p items tail hp _ ih =>
    obtain ⟨hin, hread⟩ := hkept p hp
    have hcar : h'.car p = h.car p := congrArg Pair.car hread
    have hcdr : h'.cdr p = h.cdr p := congrArg Pair.cdr hread
    rw [← hcar]
    refine .step ⟨hin, hp.2⟩ ?_
    rw [hcdr]
    exact ih

/-- A new pair in front of such a chain makes it longer. -/
theorem NewChain.cons (hchain : NewChain old h v items tail) (hgrows : old.Grows h) (item : Value) :
    NewChain old (h.cons item v).2 (h.cons item v).1 (item :: items) tail := by
  have hnew : (h.cons item v).2.pairs.read (h.pairs.alloc ⟨item, v⟩).1 = ⟨item, v⟩ :=
    Store.read_alloc_self _ _
  have hcar : (h.cons item v).2.car (h.pairs.alloc ⟨item, v⟩).1 = item := congrArg Pair.car hnew
  have hcdr : (h.cons item v).2.cdr (h.pairs.alloc ⟨item, v⟩).1 = v := congrArg Pair.cdr hnew
  have hpair : old.NewPair (h.cons item v).2 (h.pairs.alloc ⟨item, v⟩).1 :=
    ⟨Store.contains_alloc_self _ _, fun hold =>
      h.pairs.not_contains_alloc _ (hgrows.pairs.contains hold)⟩
  have hext := (h.grows_cons item v).pairs
  -- the pairs behind the new one read as before
  have hrest : NewChain old (h.cons item v).2
      ((h.cons item v).2.cdr (h.pairs.alloc ⟨item, v⟩).1) items tail := by
    rw [hcdr]
    exact hchain.congr fun p hp => ⟨hext.contains hp.1, hext.read_eq p hp.1⟩
  have hstep := NewChain.step hpair hrest
  rwa [hcar] at hstep

/-- **Making a chain** makes a new one. -/
theorem newChain_chain (h : Heap) (items : List Value) (tail : Value) :
    NewChain h (h.chain items tail).2 (h.chain items tail).1 items tail := by
  induction items with
  | nil => exact .stop tail
  | cons item items ih => exact ih.cons (h.grows_chain items tail) item

/-- **Behind the chain** a walk goes on from the tail, whatever has become of that. -/
theorem NewChain.passes_append_iff (hchain : NewChain old h v items tail) :
    h.Passes v (items ++ more) last ↔ h.Passes tail more last := by
  induction hchain with
  | stop => rfl
  | @step p items tail _ _ ih =>
    rw [← ih, List.cons_append]
    constructor
    · intro hpass
      cases hpass with
      | step _ hrest => exact hrest
    · exact .step p

/-- So a chain that ends in `nil` is a proper list of its items. -/
theorem NewChain.passes (hchain : NewChain old h v items tail) : h.Passes v items tail := by
  rw [← List.append_nil items, hchain.passes_append_iff]
  exact .stop tail

end LispObjects.Heap
