import LispObjects.Class.Graph
import Mathlib.Data.List.Nodup
import Mathlib.Logic.Relation

namespace LispObjects.ClassGraph

open Relation

/-!
# Lineages

The whole chain of superclasses of a class as a relation, and what the climbs along it come to.

* `Climb up c l` — `l` is a whole climb from `c`, to a handle from where `up` leads no further; a climb is
  unique (`Climb.unique`) and visits no class twice (`Climb.nodup`);
* `Climb.length_le` — a climb along recorded superclasses comes to no record twice, so it is not longer than
  there are records, and `climb?_size_eq_some_iff`: the bound of the climbs of a graph cuts off none;
* `Lineage g c l` — the climb to a class without a superclass;
* `isSubclass?_eq_some_true_iff`, `isSubclass?_eq_some_false_iff` — a subclass test says yes where the recorded
  superclasses lead to the other class, on an endless chain too, and no at the end of a lineage;
* `EndsAt`, `isSubclass_iff_endsAt` — a test against a class at the top tells where the chain ends,
  so tests against two of them differ (`isSubclass_eq_iff_of_tops`);
* `Rooted` — the chain is finite and ends at `object`.
-/

variable {g : ClassGraph} {c d e s : ClassId} {l m : List ClassId} {b : Bool}
  {up : ClassId → Option ClassId} {n : Nat}

/-! ### Handles and recorded superclasses -/

/-- A handle of the graph stands for itself. -/
@[simp] theorem resolve_of_contains (h : g.contains c = true) : g.resolve c = c := by
  simp [resolve, h]

/-- A handle from outside the graph stands for `object`. -/
@[simp] theorem resolve_of_not_contains (h : g.contains c = false) :
    g.resolve c = BuiltinClass.object.id := by
  simp [resolve, h]

/-- Resolving lands in every graph that has a record at all. -/
theorem contains_resolve (hpos : 0 < g.size) (c : ClassId) : g.contains (g.resolve c) = true := by
  unfold resolve
  split
  · assumption
  · exact decide_eq_true hpos

/-- What a handle stands for stands for itself, in a graph without records too. -/
@[simp] theorem resolve_resolve (g : ClassGraph) (c : ClassId) :
    g.resolve (g.resolve c) = g.resolve c := by
  by_cases h : g.contains c = true
  · rw [resolve_of_contains h, resolve_of_contains h]
  · have hout : g.contains c = false := by simpa using h
    rw [resolve_of_not_contains hout]
    unfold resolve
    split <;> rfl

/-- A record is the same whichever handle it is looked up by. -/
@[simp] theorem get?_resolve (g : ClassGraph) (c : ClassId) : g.get? (g.resolve c) = g.get? c := by
  simp [get?]

/-- The recorded superclass is the same whichever handle the record is looked up by. -/
@[simp] theorem superclass?_resolve (g : ClassGraph) (c : ClassId) :
    g.superclass? (g.resolve c) = g.superclass? c := by
  simp [superclass?]

/-- Two handles for one record have the same recorded superclass. -/
theorem superclass?_congr (h : g.resolve c = g.resolve d) : g.superclass? c = g.superclass? d := by
  rw [← superclass?_resolve, h, superclass?_resolve]

/-- A superclass is recorded in the graph. -/
theorem index_resolve_lt (h : g.superclass? c = some s) : (g.resolve c).index < g.size := by
  rw [superclass?, Option.bind_eq_some_iff] at h
  obtain ⟨r, hr, -⟩ := h
  exact (Array.getElem?_eq_some_iff.mp hr).1

/-- `s` is the recorded superclass of `c`. -/
def Super (g : ClassGraph) (c s : ClassId) : Prop :=
  g.superclass? c = some s

/-- A class has at most one recorded superclass. -/
theorem super_rightUnique (g : ClassGraph) : Relator.RightUnique g.Super := by
  intro c s t hs ht
  exact Option.some.inj (hs.symm.trans ht)

/-! ### Climbs -/

/-- A climb from a handle to one from where `up` leads no further. -/
inductive Climb (up : ClassId → Option ClassId) : ClassId → List ClassId → Prop
  | top {c : ClassId} (h : up c = none) : Climb up c [c]
  | under {c s : ClassId} {l : List ClassId} (h : up c = some s) (rest : Climb up s l) :
      Climb up c (c :: l)

namespace Climb

/-- A climb begins with the handle that it begins from. -/
theorem mem_self (h : Climb up c l) : c ∈ l := by
  cases h <;> simp

/-- A climb is not empty. -/
theorem ne_nil (h : Climb up c l) : l ≠ [] :=
  List.ne_nil_of_mem h.mem_self

/-- There is one climb from a handle. -/
theorem unique (hl : Climb up c l) (hm : Climb up c m) : l = m := by
  induction hl generalizing m with
  | top h =>
    cases hm with
    | top => rfl
    | under h' => rw [h] at h'; cases h'
  | under h _ ih =>
    cases hm with
    | top h' => rw [h] at h'; cases h'
    | under h' rest' =>
      rw [h, Option.some.injEq] at h'
      subst h'
      rw [ih rest']

/-- A climb is one by every step that takes its members where they go. -/
theorem congr {up' : ClassId → Option ClassId} (h : Climb up c l) (hup : ∀ d ∈ l, up' d = up d) :
    Climb up' c l := by
  induction h with
  | top h => exact .top ((hup _ (List.mem_singleton_self _)).trans h)
  | under h _ ih =>
    exact .under ((hup _ List.mem_cons_self).trans h)
      (ih fun d hd => hup d (List.mem_cons_of_mem _ hd))

/-- The climb from a member is the rest of the climb from there on. -/
theorem suffix_of_mem (h : Climb up c l) (hd : d ∈ l) : ∃ m, Climb up d m ∧ m <:+ l := by
  induction h with
  | top h =>
    rw [List.mem_singleton] at hd
    subst hd
    exact ⟨_, .top h, List.suffix_refl _⟩
  | @under c s l hs rest ih =>
    rcases List.mem_cons.mp hd with rfl | hd
    · exact ⟨_, .under hs rest, List.suffix_refl _⟩
    · obtain ⟨m, hm, hsuffix⟩ := ih hd
      exact ⟨m, hm, hsuffix.trans (List.suffix_cons c l)⟩

/-- No member goes on as the climb itself does: it would have the rest of the climb above it once more,
    and so a climb longer than the one it is in. -/
theorem up_ne_of_mem (h : Climb up s l) (hd : d ∈ l) : up d ≠ some s := by
  intro hs
  obtain ⟨m, hm, hsuffix⟩ := h.suffix_of_mem hd
  have heq : m = d :: l := hm.unique (.under hs h)
  have hlength := hsuffix.length_le
  rw [heq, List.length_cons] at hlength
  omega

/-- **No handle twice.** Else the climb would go on as it did before. -/
theorem nodup (h : Climb up c l) : l.Nodup := by
  induction h with
  | top => exact List.nodup_singleton _
  | under hs rest ih => exact List.nodup_cons.mpr ⟨fun hc => rest.up_ne_of_mem hc hs, ih⟩

/-- From every member but the last the climb goes on. -/
theorem exists_up_of_mem_dropLast (h : Climb up c l) (hd : d ∈ l.dropLast) : ∃ s, up d = some s := by
  induction h with
  | top => cases hd
  | @under c s l hs rest ih =>
    rw [List.dropLast_cons_of_ne_nil rest.ne_nil] at hd
    rcases List.mem_cons.mp hd with rfl | hd
    · exact ⟨s, hs⟩
    · exact ih hd

/-- **No record twice**, if the climb goes from superclass to superclass: what is recorded once is where all
    handles of the record lead. -/
theorem nodup_resolve (hup : ∀ c s, up c = some s → g.Super c s) (h : Climb up c l) :
    (l.dropLast.map g.resolve).Nodup := by
  induction h with
  | top => exact List.nodup_nil
  | @under c s l hs rest ih =>
    rw [List.dropLast_cons_of_ne_nil rest.ne_nil, List.map_cons, List.nodup_cons]
    refine ⟨fun hmem => ?_, ih⟩
    obtain ⟨d, hd, hres⟩ := List.mem_map.mp hmem
    obtain ⟨t, ht⟩ := rest.exists_up_of_mem_dropLast hd
    have hsuper : g.superclass? d = some s := (superclass?_congr hres).trans (hup c s hs)
    have heq : t = s := Option.some.inj ((hup d t ht).symm.trans hsuper)
    exact rest.up_ne_of_mem ((List.dropLast_sublist l).subset hd) (heq ▸ ht)

/-- **Length bound.** Such a climb has at most one member more than the graph has records. -/
theorem length_le (hup : ∀ c s, up c = some s → g.Super c s) (h : Climb up c l) :
    l.length ≤ g.size + 1 := by
  have hsub : l.dropLast.map g.resolve ⊆ (List.range g.size).map ClassId.mk := by
    intro e he
    obtain ⟨d, hd, rfl⟩ := List.mem_map.mp he
    obtain ⟨s, hs⟩ := h.exists_up_of_mem_dropLast hd
    exact List.mem_map.mpr ⟨_, List.mem_range.mpr (index_resolve_lt (hup d s hs)), rfl⟩
  have hlength := List.Nodup.length_le_of_subset (h.nodup_resolve hup) hsub
  rw [List.length_map, List.length_map, List.length_range, List.length_dropLast] at hlength
  omega

/-- The members are where the climb leads to. -/
theorem mem_iff_reflTransGen (h : Climb up c l) :
    d ∈ l ↔ ReflTransGen (fun c s => up c = some s) c d := by
  constructor
  · intro hd
    induction h with
    | top => rw [List.mem_singleton.mp hd]
    | under hs _ ih =>
      rcases List.mem_cons.mp hd with rfl | hd
      · exact .refl
      · exact .head hs (ih hd)
  · intro hcd
    induction hcd with
    | refl => exact h.mem_self
    | tail _ hde ih =>
      -- the step leads from a member to the one behind it, which the rest of the climb has
      obtain ⟨m, hm, hsuffix⟩ := h.suffix_of_mem ih
      cases hm with
      | top htop => rw [htop] at hde; cases hde
      | under hs rest =>
        rw [hs, Option.some.injEq] at hde
        subst hde
        exact hsuffix.subset (List.mem_cons_of_mem _ rest.mem_self)

end Climb

/-- What is found within a bound is the climb, if it has no more members. -/
theorem climb?_eq_some_iff : climb? up n c = some l ↔ Climb up c l ∧ l.length ≤ n := by
  -- by the count: each step upward takes one of it
  induction n generalizing c l with
  | zero =>
    refine iff_of_false nofun fun ⟨h, hlength⟩ => ?_
    exact h.ne_nil (List.length_eq_zero_iff.mp (Nat.le_zero.mp hlength))
  | succ n ih =>
    rw [climb?]
    cases hup : up c with
    | none =>
      rw [Option.some.injEq]
      constructor
      · rintro rfl
        exact ⟨.top hup, Nat.succ_le_succ (Nat.zero_le n)⟩
      · rintro ⟨h, -⟩
        exact (Climb.top hup).unique h
    | some s =>
      rw [Option.map_eq_some_iff]
      constructor
      · rintro ⟨m, hm, rfl⟩
        obtain ⟨h, hlength⟩ := ih.mp hm
        exact ⟨.under hup h, Nat.succ_le_succ hlength⟩
      · rintro ⟨h, hlength⟩
        cases h with
        | top htop => rw [hup] at htop; cases htop
        | @under _ t m hs rest =>
          rw [hup, Option.some.injEq] at hs
          subst hs
          exact ⟨m, ih.mpr ⟨rest, Nat.le_of_succ_le_succ hlength⟩, rfl⟩

/-- **Climbs of a graph.** The bound is never what keeps one from being found. -/
theorem climb?_size_eq_some_iff (hup : ∀ c s, up c = some s → g.Super c s) :
    climb? up (g.size + 1) c = some l ↔ Climb up c l := by
  rw [climb?_eq_some_iff]
  exact and_iff_left_of_imp fun h => h.length_le hup

/-! ### Whole chains -/

/-- The chain that leads upward from a class, to a class without a superclass. -/
abbrev Lineage (g : ClassGraph) : ClassId → List ClassId → Prop :=
  Climb g.superclass?

/-- The members of a lineage are the class and all that its recorded superclasses lead to. -/
theorem Lineage.mem_iff (h : g.Lineage c l) : d ∈ l ↔ ReflTransGen g.Super c d :=
  h.mem_iff_reflTransGen

/-- A chain is listed exactly if it is a lineage. -/
theorem chain?_eq_some_iff : g.chain? c = some l ↔ g.Lineage (g.resolve c) l :=
  climb?_size_eq_some_iff fun _ _ h => h

/-- The ancestors of a class that has a lineage are the lineage. -/
theorem ancestors_eq (h : g.Lineage (g.resolve c) l) : g.ancestors c = l := by
  rw [ancestors, chain?_eq_some_iff.mpr h, Option.getD_some]

/-! ### Subclass tests -/

/-- A climb up to a class goes along recorded superclasses. -/
theorem super_of_superclassUpTo? (h : g.superclassUpTo? d c = some s) : g.Super c s := by
  rw [superclassUpTo?] at h
  split at h
  · cases h
  · exact h

/-- Where the recorded superclasses lead to a class, the climb up to it ends with it. -/
theorem exists_climb_of_reflTransGen (h : ReflTransGen g.Super c d) :
    ∃ l, Climb (g.superclassUpTo? d) c l ∧ d ∈ l := by
  have hstop : Climb (g.superclassUpTo? d) d [d] := .top (if_pos rfl)
  induction h using ReflTransGen.head_induction_on with
  | refl => exact ⟨[d], hstop, List.mem_singleton_self d⟩
  | @head c s hs _ ih =>
    obtain ⟨l, hl, hd⟩ := ih
    by_cases hc : c = d
    · exact ⟨[d], hc ▸ hstop, List.mem_singleton_self d⟩
    · exact ⟨c :: l, .under ((if_neg hc).trans hs) hl, List.mem_cons_of_mem c hd⟩

/-- A climb that does not meet the class is a lineage. -/
theorem climb_upTo_iff (hd : d ∉ l) : Climb (g.superclassUpTo? d) c l ↔ g.Lineage c l := by
  have hup : ∀ a ∈ l, g.superclassUpTo? d a = g.superclass? a := fun a ha =>
    if_neg (ne_of_mem_of_not_mem ha hd)
  exact ⟨fun h => h.congr fun a ha => (hup a ha).symm, fun h => h.congr hup⟩

/-- A test has an answer where its climb ends, and says whether that met the class. -/
theorem isSubclass?_eq_some_iff :
    g.isSubclass? c d = some b ↔
      ∃ l, Climb (g.superclassUpTo? d) (g.resolve c) l ∧ (d ∈ l ↔ b = true) := by
  rw [isSubclass?, Option.map_eq_some_iff]
  constructor
  · rintro ⟨l, hl, rfl⟩
    exact ⟨l, (climb?_size_eq_some_iff fun _ _ => super_of_superclassUpTo?).mp hl, by simp⟩
  · rintro ⟨l, hl, hb⟩
    refine ⟨l, (climb?_size_eq_some_iff fun _ _ => super_of_superclassUpTo?).mpr hl, ?_⟩
    rw [Bool.eq_iff_iff, List.contains_iff_mem, hb]

/-- **Yes** is the answer where the recorded superclasses lead to the class, whether the chain ends or not. -/
theorem isSubclass?_eq_some_true_iff :
    g.isSubclass? c d = some true ↔ ReflTransGen g.Super (g.resolve c) d := by
  rw [isSubclass?_eq_some_iff]
  constructor
  · rintro ⟨l, hl, hd⟩
    exact ReflTransGen.mono (fun _ _ => super_of_superclassUpTo?) _ _
      (hl.mem_iff_reflTransGen.mp (hd.mpr rfl))
  · intro h
    obtain ⟨l, hl, hd⟩ := exists_climb_of_reflTransGen h
    exact ⟨l, hl, iff_of_true hd rfl⟩

/-- **No** is the answer on a chain that ends and that the class is not on. -/
theorem isSubclass?_eq_some_false_iff :
    g.isSubclass? c d = some false ↔ ∃ l, g.Lineage (g.resolve c) l ∧ d ∉ l := by
  rw [isSubclass?_eq_some_iff]
  constructor
  · rintro ⟨l, hl, hd⟩
    have hd : d ∉ l := mt hd.mp Bool.false_ne_true
    exact ⟨l, (climb_upTo_iff hd).mp hl, hd⟩
  · rintro ⟨l, hl, hd⟩
    exact ⟨l, (climb_upTo_iff hd).mpr hl, iff_of_false hd Bool.false_ne_true⟩

/-- The test says what is found out. -/
theorem isSubclass_of_isSubclass? (h : g.isSubclass? c d = some b) : g.isSubclass c d = b := by
  rw [isSubclass, h, Option.getD_some]

/-- **The subclass test** is the reflexive and transitive closure of the recorded superclasses. -/
theorem isSubclass_iff_reflTransGen :
    g.isSubclass c d = true ↔ ReflTransGen g.Super (g.resolve c) d := by
  rw [← isSubclass?_eq_some_true_iff, isSubclass]
  cases g.isSubclass? c d with
  | none => exact iff_of_false Bool.false_ne_true nofun
  | some b => rw [Option.getD_some, Option.some.injEq]

/-- On a chain that ends the test does. -/
theorem isSubclass?_eq_some (h : g.Lineage (g.resolve c) l) (d : ClassId) :
    g.isSubclass? c d = some (g.isSubclass c d) := by
  cases hd : g.isSubclass c d with
  | true =>
    exact isSubclass?_eq_some_true_iff.mpr (isSubclass_iff_reflTransGen.mp hd)
  | false =>
    refine isSubclass?_eq_some_false_iff.mpr ⟨l, h, fun hmem => ?_⟩
    have hmet := isSubclass_iff_reflTransGen.mpr (h.mem_iff.mp hmem)
    rw [hd] at hmet
    cases hmet

/-- Of a handle of the graph it is the chain of that handle itself. -/
theorem isSubclass_iff_of_contains (hc : g.contains c = true) :
    g.isSubclass c d = true ↔ ReflTransGen g.Super c d := by
  rw [isSubclass_iff_reflTransGen, resolve_of_contains hc]

/-- A class of the graph is a subclass of itself. -/
theorem isSubclass_refl (hc : g.contains c = true) : g.isSubclass c c = true :=
  (isSubclass_iff_of_contains hc).mpr .refl

/-- Only the record of the lower class matters. -/
theorem isSubclass_congr (h : g.resolve c = g.resolve d) (e : ClassId) :
    g.isSubclass c e = g.isSubclass d e := by
  rw [isSubclass, isSubclass?, h, isSubclass, isSubclass?]

/-! ### Where a chain ends -/

/-- The chain from `c` upward is finite, and its last class is `d`. -/
def EndsAt (g : ClassGraph) (c d : ClassId) : Prop :=
  ∃ l, g.Lineage c l ∧ l.getLast? = some d

namespace EndsAt

/-- A chain has one end. -/
theorem unique (hd : g.EndsAt c d) (he : g.EndsAt c e) : d = e := by
  obtain ⟨l, hl, hdl⟩ := hd
  obtain ⟨m, hm, hem⟩ := he
  rw [hl.unique hm, hem, Option.some.injEq] at hdl
  exact hdl.symm

/-- A class without a superclass is the end of its own chain. -/
theorem of_top (h : g.superclass? c = none) : g.EndsAt c c :=
  ⟨[c], .top h, rfl⟩

/-- The chain of a class ends where that of its superclass does. -/
theorem of_super (h : g.superclass? c = some s) (hs : g.EndsAt s d) : g.EndsAt c d := by
  obtain ⟨l, hl, hd⟩ := hs
  refine ⟨c :: l, .under h hl, ?_⟩
  rw [List.getLast?_cons, hd]
  rfl

/-- Whatever leads to a class without a superclass ends there. -/
theorem of_reflTransGen (h : ReflTransGen g.Super c d) (top : g.superclass? d = none) :
    g.EndsAt c d := by
  induction h using ReflTransGen.head_induction_on with
  | refl => exact of_top top
  | head hs _ ih => exact of_super hs ih

end EndsAt

/-- **Tests against the top.** Whether a class stands under one that has no superclass tells
    whether its chain ends there. -/
theorem isSubclass_iff_endsAt (top : g.superclass? d = none) :
    g.isSubclass c d = true ↔ g.EndsAt (g.resolve c) d := by
  rw [isSubclass_iff_reflTransGen]
  refine ⟨fun h => .of_reflTransGen h top, ?_⟩
  rintro ⟨l, hl, hlast⟩
  exact hl.mem_iff.mp (List.mem_of_getLast? hlast)

/-- It says no if the chain ends elsewhere, or not at all. -/
theorem isSubclass_eq_false_iff_endsAt (top : g.superclass? d = none) :
    g.isSubclass c d = false ↔ ¬ g.EndsAt (g.resolve c) d := by
  rw [← isSubclass_iff_endsAt top, Bool.not_eq_true]

/-- Tests against two classes at the top agree only for a chain that ends at neither of them. -/
theorem isSubclass_eq_iff_of_tops (hd : g.superclass? d = none)
    (he : g.superclass? e = none) (hne : d ≠ e) :
    g.isSubclass c d = g.isSubclass c e ↔
      ¬ g.EndsAt (g.resolve c) d ∧ ¬ g.EndsAt (g.resolve c) e := by
  rw [Bool.eq_iff_iff, isSubclass_iff_endsAt hd, isSubclass_iff_endsAt he]
  constructor
  · intro heq
    refine ⟨fun hcd => ?_, fun hce => ?_⟩
    · exact hne (hcd.unique (heq.mp hcd))
    · exact hne ((heq.mpr hce).unique hce)
  · rintro ⟨hcd, hce⟩
    exact iff_of_false hcd hce

/-- The chain of superclasses of `c` is finite, visits no class twice and ends at `object`, it is
    what the ancestors of `c` are listed as, and `c` passes as a subclass of `object`. -/
def Rooted (g : ClassGraph) (c : ClassId) : Prop :=
  ∃ l, g.Lineage c l ∧ l.Nodup ∧ l.getLast? = some BuiltinClass.object.id ∧
    g.ancestors c = l ∧ g.isSubclass c BuiltinClass.object = true

/-- A class of the graph is rooted exactly if its chain ends at `object`. -/
theorem rooted_iff_endsAt (hc : g.contains c = true) :
    g.Rooted c ↔ g.EndsAt c BuiltinClass.object.id := by
  constructor
  · rintro ⟨l, hl, -, hlast, -⟩
    exact ⟨l, hl, hlast⟩
  · rintro ⟨l, hl, hlast⟩
    have hres : g.Lineage (g.resolve c) l := by rwa [resolve_of_contains hc]
    refine ⟨l, hl, hl.nodup, hlast, ancestors_eq hres, ?_⟩
    rw [isSubclass_iff_reflTransGen]
    exact hres.mem_iff.mp (List.mem_of_getLast? hlast)

end LispObjects.ClassGraph
