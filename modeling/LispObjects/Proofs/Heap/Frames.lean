import LispObjects.Heap.Environment
import LispObjects.Proofs.Heap.WriteLog

namespace LispObjects

/-!
# Environments and logs of puts

A binding is a write of one frame, and a lookup looks at a chain of frames.  A log of all puts that
were made on any frame says what every lookup gives.

* `NearestPut log e s v` — the newest put of `s` on the nearest frame of `e` that `s` was ever put on
  put `v`;
* `Heap.lookup?_eq_some_iff`, `Heap.lookup?_eq_none_iff` — that is what a lookup gives, if anything;
* `Heap.exists_put_of_lookup?_ne` — puts change a lookup only where one of them is on the nearest frame
  that now has the symbol.
-/

variable {log puts : List (Write .frame)} {h h' : Heap} {e : Environment} {s : Symbol} {v : Value}

/-- On some frame of the environment `s` was put.  On the nearest such frame the newest put of `s` was
    of the value `v`. -/
def NearestPut (log : List (Write .frame)) (e : Environment) (s : Symbol) (v : Value) : Prop :=
  ∃ inner f outer, e.frames = inner ++ f :: outer ∧ (∀ w ∈ log, w.key = s → w.cell ∉ inner) ∧
    LastWrite (fun w => w.cell = f ∧ w.key = s) log v

/-- Two searches of a list differ only if they differ at a member that the first search reaches. -/
theorem exists_of_findSome?_ne {α β : Type} {f g : α → Option β} {as : List α}
    (hne : as.findSome? g ≠ as.findSome? f) :
    ∃ front a back, as = front ++ a :: back ∧ (∀ x ∈ front, f x = none) ∧ g a ≠ f a := by
  induction as with
  | nil => exact absurd rfl hne
  | cons a as ih =>
    by_cases hhead : g a = f a
    · rw [List.findSome?_cons, List.findSome?_cons, hhead] at hne
      -- a value at the head would have been found by both
      cases hf : f a with
      | some b =>
        rw [hf] at hne
        exact absurd rfl hne
      | none =>
        rw [hf] at hne
        obtain ⟨front, b, back, rfl, hfront, hb⟩ := ih hne
        exact ⟨a :: front, b, back, rfl, List.forall_mem_cons.mpr ⟨hf, hfront⟩, hb⟩
    · exact ⟨[], a, as, rfl, by simp, hhead⟩

namespace Heap

/-! ### Bindings as puts -/

/-- A binding is a put on the environment's own frame. -/
theorem frames_bind (h : Heap) (e : Environment) (s : Symbol) (v : Value) :
    (h.bind e s v).frames = h.frames.put ⟨e.frame, s, v⟩ := rfl

/-- A binding is found in its own environment. -/
theorem lookup?_bind_self (he : h.frames.Contains e.frame) (s : Symbol) (v : Value) :
    (h.bind e s v).lookup? e s = some v := by
  have hread : ((h.bind e s v).frames.read e.frame).get? s = some v := by
    rw [frames_bind, Store.read_put he, if_pos rfl, Bindings.get?_put, if_pos rfl]
  show (e.frame :: e.outer).findSome? _ = some v
  rw [List.findSome?_cons, hread]

/-- A binding affects no other symbol, in any environment. -/
theorem lookup?_bind_of_ne {d : Environment} {s' : Symbol} (hs : s' ≠ s) :
    (h.bind e s v).lookup? d s' = h.lookup? d s' := by
  simp only [lookup?, frames_bind]
  congr 1
  funext f
  exact Store.get?_read_put fun _ hkey => hs hkey.symm

/-- Several bindings in one environment change its frame and nothing else. -/
theorem foldl_bind_eq (h : Heap) (e : Environment) (bindings : List (Symbol × Value)) :
    bindings.foldl (fun h b => h.bind e b.1 b.2) h =
      { h with frames := (bindings.map fun b => ⟨e.frame, b.1, b.2⟩).foldl Store.put h.frames } := by
  induction bindings generalizing h with
  | nil => rfl
  | cons b bindings ih =>
    rw [List.foldl_cons, List.map_cons, List.foldl_cons, ih, frames_bind]
    rfl

/-- Several bindings in one environment are as many puts. -/
theorem frames_foldl_bind (h : Heap) (e : Environment) (bindings : List (Symbol × Value)) :
    (bindings.foldl (fun h b => h.bind e b.1 b.2) h).frames =
      (bindings.map fun b => ⟨e.frame, b.1, b.2⟩).foldl Store.put h.frames := by
  rw [foldl_bind_eq]

/-! ### What the log says -/

/-- **Lookups.** A lookup gives what the log says. -/
theorem lookup?_eq_some_iff (hlog : h.frames.Records log) :
    h.lookup? e s = some v ↔ NearestPut log e s v := by
  simp only [lookup?, List.findSome?_eq_some_iff, hlog.get?_eq_some_iff, hlog.get?_eq_none_iff]
  constructor
  · rintro ⟨inner, f, outer, hframes, hput, hinner⟩
    refine ⟨inner, f, outer, hframes, fun w hw hkey hcell => ?_, hput⟩
    exact hinner w.cell hcell w hw rfl hkey
  · rintro ⟨inner, f, outer, hframes, hinner, hput⟩
    refine ⟨inner, f, outer, hframes, hput, fun g hg w hw hcell hkey => ?_⟩
    exact hinner w hw hkey (hcell ▸ hg)

/-- A lookup gives nothing if no frame was ever put the symbol. -/
theorem lookup?_eq_none_iff (hlog : h.frames.Records log) :
    h.lookup? e s = none ↔ ∀ w ∈ log, w.key = s → w.cell ∉ e.frames := by
  simp only [lookup?, List.findSome?_eq_none_iff, hlog.get?_eq_none_iff]
  constructor
  · intro hnone w hw hkey hcell
    exact hnone w.cell hcell w hw rfl hkey
  · intro hnone f hf w hw hcell hkey
    exact hnone w hw hkey (hcell ▸ hf)

/-- The environment's own frame gives what was put on it. -/
theorem localLookup?_eq_some_iff (hlog : h.frames.Records log) :
    h.localLookup? e s = some v ↔ LastWrite (fun w => w.cell = e.frame ∧ w.key = s) log v :=
  hlog.get?_eq_some_iff

/-- Every symbol that was put on it counts once. -/
theorem localSize_eq (hlog : h.frames.Records log) :
    h.localSize e = ((log.filter (·.cell = e.frame)).map (·.key)).toFinset.card := by
  rw [localSize, localBindings, hlog.read_eq, Bindings.size_ofPuts, putsTo, List.map_map]
  rfl

/-- **Changes.** If puts change what a lookup gives, one of them is of the symbol, and no frame nearer
    than its own had the symbol before. -/
theorem exists_put_of_lookup?_ne (hlog : h.frames.Records log)
    (hputs : h'.frames = puts.foldl Store.put h.frames) (hne : h'.lookup? e s ≠ h.lookup? e s) :
    ∃ w ∈ puts, w.key = s ∧ ∃ inner outer, e.frames = inner ++ w.cell :: outer ∧
      ∀ u ∈ log, u.key = s → u.cell ∉ inner := by
  obtain ⟨inner, f, outer, hframes, hinner, hf⟩ := exists_of_findSome?_ne hne
  have hput : ∃ w ∈ puts, w.cell = f ∧ w.key = s := by
    by_contra hnot
    refine hf ?_
    rw [hputs, Store.get?_read_foldl_put]
    intro w hw hcell hkey
    exact hnot ⟨w, hw, hcell, hkey⟩
  obtain ⟨w, hw, rfl, hkey⟩ := hput
  refine ⟨w, hw, hkey, inner, outer, hframes, fun u hu hukey hcell => ?_⟩
  have hnone := hlog.get?_eq_none_iff.mp (hinner u.cell hcell)
  exact hnone u hu rfl hukey

end Heap

end LispObjects
