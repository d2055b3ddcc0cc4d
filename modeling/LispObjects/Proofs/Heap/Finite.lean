import LispObjects.Proofs.Heap.Chain
import Mathlib.Data.Finite.Prod
import Mathlib.Data.Finset.Card
import Mathlib.Data.Set.Finite.Range
import Mathlib.Logic.Relation
import Mathlib.Order.WellFounded

namespace LispObjects.Heap

/-!
# Finite values

A pair can be made to hold itself, so that a walk through the halves of pairs need not end.

* `Heap.Half`, `Heap.Within` — what a pair holds, directly and at any depth;
* `Heap.IsFinite` — no walk from the value goes on for ever: an induction over the halves of pairs;
* `Heap.isFinite_iff_acyclic` — as a heap has only so many pairs, that is so if and only if no value
  within it is within one of its own halves;
* `Heap.IsChain.isFinite` — lists of finite values;
* `Heap.ChainEnds`, `Heap.IsFinite.chainEnds`, `Heap.spine_snd_ne_pair` — a list whose items may be
  anything ends too, unless it runs in a circle, and then its spine is read to its end.
-/

variable {h : Heap} {v x tail : Value} {items : List Value} {r : Ref .pair}

/-- Nothing from which all walks end is on a way to itself. -/
theorem not_transGen_self {α : Type*} {rel : α → α → Prop} {a : α} (ha : Acc rel a) :
    ¬ Relation.TransGen rel a a := by
  have hacc : Acc (Relation.TransGen rel) a := ha.transGen
  clear ha
  induction hacc with
  | intro a _ ih => exact fun hcycle => ih a hcycle hcycle

/-- What is passed below a pair from which all walks end is neither that pair nor one that was avoided. -/
theorem notMem_insert_of_below {rel : Value → Value → Prop} {passed : Finset Nat}
    (hr : Acc rel (.pair r))
    (havoids : ∀ q, Relation.ReflTransGen rel (.pair q) (.pair r) → q.index ∉ passed)
    (hx : Relation.TransGen rel x (.pair r)) (q : Ref .pair)
    (hq : Relation.ReflTransGen rel (.pair q) x) : q.index ∉ insert r.index passed := by
  intro hmem
  obtain heq | hmem := Finset.mem_insert.mp hmem
  · obtain rfl : q = r := by cases q; cases r; exact congrArg _ heq
    exact not_transGen_self hr (.trans_right hq hx)
  · exact havoids q (hq.trans hx.to_reflTransGen) hmem

/-! ### Halves -/

/-- The value `x` is one of the halves of the pair `v`. -/
inductive Half (h : Heap) : Value → Value → Prop where
  | car (r : Ref .pair) : h.Half (h.car r) (.pair r)
  | cdr (r : Ref .pair) : h.Half (h.cdr r) (.pair r)

/-- The value `x` is `v` itself, or is held by the pairs of `v` at some depth. -/
def Within (h : Heap) : Value → Value → Prop :=
  Relation.ReflTransGen h.Half

/-- Every walk that leads from a pair to one of its halves, and so on, ends. -/
def IsFinite (h : Heap) (v : Value) : Prop :=
  Acc h.Half v

/-- Within a pair are itself and what is within its halves. -/
theorem within_pair_iff :
    h.Within x (.pair r) ↔ x = .pair r ∨ h.Within x (h.car r) ∨ h.Within x (h.cdr r) := by
  constructor
  · intro hx
    obtain rfl | ⟨y, hxy, hy⟩ := Relation.ReflTransGen.cases_tail hx
    · exact .inl rfl
    · cases hy with
      | car => exact .inr (.inl hxy)
      | cdr => exact .inr (.inr hxy)
  · rintro (rfl | hx | hx)
    · exact .refl
    · exact hx.tail (.car r)
    · exact hx.tail (.cdr r)

/-- Only a pair holds anything but itself. -/
theorem within_iff_of_ne_pair (hv : ∀ r, v ≠ .pair r) : h.Within x v ↔ x = v := by
  constructor
  · intro hx
    obtain rfl | ⟨y, -, hy⟩ := Relation.ReflTransGen.cases_tail hx
    · rfl
    · cases hy with
      | car r => exact absurd rfl (hv r)
      | cdr r => exact absurd rfl (hv r)
  · rintro rfl
    exact .refl

/-- A pair is finite if both halves are. -/
theorem isFinite_pair_iff : h.IsFinite (.pair r) ↔ h.IsFinite (h.car r) ∧ h.IsFinite (h.cdr r) := by
  constructor
  · exact fun hr => ⟨Acc.inv hr (.car r), Acc.inv hr (.cdr r)⟩
  · rintro ⟨hcar, hcdr⟩
    refine Acc.intro _ fun x hx => ?_
    cases hx with
    | car => exact hcar
    | cdr => exact hcdr

/-- No walk begins at a value that is no pair. -/
theorem isFinite_of_ne_pair (hv : ∀ r, v ≠ .pair r) : h.IsFinite v := by
  refine Acc.intro _ fun x hx => ?_
  cases hx with
  | car r => exact absurd rfl (hv r)
  | cdr r => exact absurd rfl (hv r)

/-- What a finite value holds is finite. -/
theorem IsFinite.of_within (hv : h.IsFinite v) (hx : h.Within x v) : h.IsFinite x := by
  induction hx with
  | refl => exact hv
  | tail _ hhalf ih => exact ih (Acc.inv hv hhalf)

/-- A chain is finite if its items and its tail are. -/
theorem IsChain.isFinite (hchain : h.IsChain v items tail) (hitems : ∀ item ∈ items, h.IsFinite item)
    (htail : h.IsFinite tail) : h.IsFinite v := by
  induction items generalizing v with
  | nil =>
    obtain rfl : v = tail := hchain
    exact htail
  | cons item items ih =>
    obtain ⟨p, rfl, -, rfl, hrest⟩ := hchain
    rw [List.forall_mem_cons] at hitems
    exact isFinite_pair_iff.mpr ⟨hitems.1, ih hrest hitems.2⟩

/-! ### No cycles -/

/-- A pair that the heap never made holds nothing but `nil`. -/
theorem halves_of_not_contains (hr : ¬ h.pairs.Contains r) : h.car r = .nil ∧ h.cdr r = .nil := by
  have hread : h.pairs.read r = default := by
    rw [Store.read, Array.getD_eq_getD_getElem?, Array.getElem?_eq_none (Nat.le_of_not_lt hr)]
    rfl
  rw [car, cdr, hread]
  exact ⟨rfl, rfl⟩

/-- A value holds only so many others: itself, halves of the heap's pairs, and `nil`. -/
theorem finite_within (h : Heap) (v : Value) : {x | h.Within x v}.Finite := by
  let half (i : Fin h.pairs.size × Bool) : Value := if i.2 then h.car ⟨i.1⟩ else h.cdr ⟨i.1⟩
  refine ((Set.finite_range half).insert .nil |>.insert v).subset ?_
  intro x hx
  obtain rfl | ⟨y, hxy, -⟩ := Relation.ReflTransGen.cases_head hx
  · exact .inl rfl
  · -- only the half of the first pair matters, not how that pair was come to
    right
    cases hxy with
    | car r =>
      by_cases hr : h.pairs.Contains r
      · exact .inr ⟨(⟨r.index, hr⟩, true), rfl⟩
      · exact .inl (halves_of_not_contains hr).1
    | cdr r =>
      by_cases hr : h.pairs.Contains r
      · exact .inr ⟨(⟨r.index, hr⟩, false), rfl⟩
      · exact .inl (halves_of_not_contains hr).2

/-- **No cycles.** A value is finite if and only if nothing in it holds itself. -/
theorem isFinite_iff_acyclic :
    h.IsFinite v ↔ ∀ x, h.Within x v → ¬ Relation.TransGen h.Half x x := by
  constructor
  · exact fun hv x hx => not_transGen_self (hv.of_within hx)
  · intro hacyclic
    -- on the values within `v`, of which there are finitely many, the walks are a strict order
    let below (x y : {x | h.Within x v}) : Prop := Relation.TransGen h.Half x y
    have : Finite {x | h.Within x v} := (finite_within h v).to_subtype
    have : Std.Irrefl below := ⟨fun x => hacyclic x x.2⟩
    have : IsTrans _ below := ⟨fun _ _ _ hxy hyz => hxy.trans hyz⟩
    have hbelow : WellFounded below := Finite.wellFounded_of_trans_of_irrefl below
    have hfinite : ∀ x : {x | h.Within x v}, h.IsFinite x := by
      intro x
      induction x using hbelow.induction with
      | _ x ih => exact Acc.intro _ fun y hy => ih ⟨y, x.2.head hy⟩ (.single hy)
    exact hfinite ⟨v, .refl⟩

/-! ### Chains that end -/

/-- The value `x` is the second half of the pair `v`. -/
inductive Rest (h : Heap) : Value → Value → Prop where
  | cdr (r : Ref .pair) : h.Rest (h.cdr r) (.pair r)

/-- The walk through the second halves of pairs ends; what the first halves hold does not matter. -/
def ChainEnds (h : Heap) (v : Value) : Prop :=
  Acc h.Rest v

/-- The second halves of a finite value lead to an end. -/
theorem IsFinite.chainEnds (hv : h.IsFinite v) : h.ChainEnds v := by
  refine Subrelation.accessible ?_ hv
  rintro _ _ ⟨r⟩
  exact .cdr r

/-- A value that is no pair has no items and is its own end. -/
theorem spineUpTo_of_ne_pair (hv : ∀ r, v ≠ .pair r) (count : Nat) :
    h.spineUpTo count v = ([], v) := by
  rw [spineUpTo]
  exact fun _ r _ hr => hv r hr

/-- A count that leaves room for every pair but those that the chain avoids does not cut it off. -/
theorem spineUpTo_snd_ne_pair (hv : h.ChainEnds v) {passed : Finset Nat}
    (hpassed : passed ⊆ Finset.range h.pairs.size)
    (havoids : ∀ r, Relation.ReflTransGen h.Rest (.pair r) v → r.index ∉ passed) {count : Nat}
    (hcount : h.pairs.size < count + passed.card) (s : Ref .pair) :
    (h.spineUpTo count v).2 ≠ .pair s := by
  have hcard := Finset.card_le_card hpassed
  rw [Finset.card_range] at hcard
  -- a step uses up one of the count and passes one pair, so `hcount` holds all along the walk
  induction hv generalizing passed count with
  | intro v hacc ih =>
    by_cases hpair : ∃ r, v = .pair r
    · obtain ⟨r, rfl⟩ := hpair
      obtain ⟨count, rfl⟩ : ∃ n, count = n + 1 := ⟨count - 1, by omega⟩
      rw [spineUpTo]
      by_cases hr : h.pairs.Contains r
      · -- the pair is passed now, and a chain that ends does not come back to it
        have hnew : r.index ∉ passed := havoids r .refl
        have hsub : insert r.index passed ⊆ Finset.range h.pairs.size :=
          Finset.insert_subset (Finset.mem_range.mpr hr) hpassed
        have hle := Finset.card_le_card hsub
        rw [Finset.card_range] at hle
        refine ih _ (.cdr r) hsub ?_ ?_ hle
        · exact notMem_insert_of_below (Acc.intro _ hacc) havoids (.single (.cdr r))
        · rw [Finset.card_insert_of_notMem hnew]
          omega
      · -- the heap never made the pair, so the walk is over
        have hnil : ∀ s, Value.nil ≠ .pair s := by simp
        rw [(halves_of_not_contains hr).2, spineUpTo_of_ne_pair hnil]
        exact hnil s
    · rw [spineUpTo_of_ne_pair fun r hr => hpair ⟨r, hr⟩]
      exact fun hs => hpair ⟨s, hs⟩

/-- **Spines** of chains that end are read to the end. -/
theorem spine_snd_ne_pair (hv : h.ChainEnds v) (s : Ref .pair) : (h.spine v).2 ≠ .pair s := by
  refine spineUpTo_snd_ne_pair hv (Finset.empty_subset _) (fun _ _ => Finset.notMem_empty _) ?_ s
  rw [Finset.card_empty]
  omega

end LispObjects.Heap
