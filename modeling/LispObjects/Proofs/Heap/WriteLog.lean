import LispObjects.Bindings
import LispObjects.Store
import LispObjects.Value.Basic
import Mathlib.Data.Finset.Card
import Mathlib.Data.List.Induction

namespace LispObjects

/-!
# Logs of writes

Frames and slots are cells that hold bindings, and a cell is changed by writing a value under a
symbol.  A log of the writes, from the oldest to the newest, says all that is in such a store.

* `LastWrite P log v` — the newest of the writes that satisfy `P` wrote `v`;
* `Bindings.ofPuts` — the bindings that writes make: their order (`Bindings.keys_ofPuts`), their values
  (`Bindings.get?_ofPuts`) and their number (`Bindings.size_ofPuts`);
* `Store.Records s log` — every cell of `s` holds what the writes of `log` to it have made, kept by
  making a cell and by writing one (`Records.alloc`, `Records.put`);
* `Store.Records.get?_eq_some_iff` — what is read is what was written last.
-/

/-- A value written under a symbol into a cell. -/
structure Write (kind : CellKind) where
  cell : Ref kind
  key : Symbol
  value : Value

variable {kind : CellKind} {log : List (Write kind)} {w : Write kind} {P Q : Write kind → Prop}
  {v : Value}

/-! ### The newest write -/

/-- The newest of the writes that satisfy `P` wrote the value `v`. -/
def LastWrite (P : Write kind → Prop) (log : List (Write kind)) (v : Value) : Prop :=
  ∃ before w after, log = before ++ w :: after ∧ P w ∧ w.value = v ∧ ∀ u ∈ after, ¬ P u

/-- Nothing was written last where nothing was written. -/
theorem not_lastWrite_nil : ¬ LastWrite P [] v := by
  rintro ⟨before, w, after, h, -⟩
  simp at h

/-- One more write is the newest if it satisfies `P`. -/
theorem lastWrite_concat_of_pos (h : P w) : LastWrite P (log ++ [w]) v ↔ w.value = v := by
  constructor
  · rintro ⟨before, u, after, hlog, -, hvalue, hafter⟩
    rcases List.eq_nil_or_concat after with rfl | ⟨after, last, rfl⟩
    · obtain ⟨-, hw⟩ := List.append_inj' hlog rfl
      rw [List.singleton_inj.mp hw, hvalue]
    · -- a write after the newest one satisfies `P`, which the last one of the log does
      rw [List.concat_eq_append, ← List.cons_append, ← List.append_assoc] at hlog
      obtain ⟨-, hw⟩ := List.append_inj' hlog rfl
      rw [List.singleton_inj.mp hw] at h
      exact absurd h (hafter last (by simp))
  · intro hvalue
    exact ⟨log, w, [], rfl, h, hvalue, by simp⟩

/-- Any other write leaves the newest one as it is. -/
theorem lastWrite_concat_of_neg (h : ¬ P w) : LastWrite P (log ++ [w]) v ↔ LastWrite P log v := by
  constructor
  · rintro ⟨before, u, after, hlog, hu, hvalue, hafter⟩
    -- the last write is not the new one, so the new one stands behind it
    rcases List.eq_nil_or_concat after with rfl | ⟨after, last, rfl⟩
    · obtain ⟨-, hw⟩ := List.append_inj' hlog rfl
      rw [List.singleton_inj.mp hw] at h
      exact absurd hu h
    · rw [List.concat_eq_append, ← List.cons_append, ← List.append_assoc] at hlog
      obtain ⟨hinit, -⟩ := List.append_inj' hlog rfl
      exact ⟨before, u, after, hinit, hu, hvalue, fun x hx => hafter x (by simp [hx])⟩
  · rintro ⟨before, u, after, rfl, hu, hvalue, hafter⟩
    refine ⟨before, u, after ++ [w], by simp, hu, hvalue, fun x hx => ?_⟩
    rcases List.mem_append.mp hx with hx | hx
    · exact hafter x hx
    · rwa [List.mem_singleton.mp hx]

/-- Any number of writes of another kind leave the last write as it was. -/
theorem lastWrite_append_of_neg {more : List (Write kind)} (h : ∀ w ∈ more, ¬ P w) :
    LastWrite P (log ++ more) v ↔ LastWrite P log v := by
  induction more using List.reverseRecOn with
  | nil => rw [List.append_nil]
  | append_singleton more w ih =>
    have hmore : ∀ u ∈ more, ¬ P u := fun u hu => h u (List.mem_append_left _ hu)
    have hw : ¬ P w := h w (by simp)
    rw [← List.append_assoc, lastWrite_concat_of_neg hw, ih hmore]

/-- There is a newest write if there is any. -/
theorem exists_lastWrite_iff : (∃ v, LastWrite P log v) ↔ ∃ w ∈ log, P w := by
  constructor
  · rintro ⟨v, before, w, after, rfl, hw, -⟩
    exact ⟨w, by simp, hw⟩
  · rintro ⟨w, hmem, hw⟩
    induction log using List.reverseRecOn with
    | nil => simp at hmem
    | append_singleton log u ih =>
      -- the newest write that satisfies the condition is the last one
      by_cases hu : P u
      · exact ⟨u.value, (lastWrite_concat_of_pos hu).mpr rfl⟩
      · rcases List.mem_append.mp hmem with hmem | hmem
        · obtain ⟨v, hv⟩ := ih hmem
          exact ⟨v, (lastWrite_concat_of_neg hu).mpr hv⟩
        · rw [List.mem_singleton.mp hmem] at hw
          exact absurd hw hu

/-- Only the writes of the log matter. -/
theorem lastWrite_congr (h : ∀ w ∈ log, P w ↔ Q w) : LastWrite P log v ↔ LastWrite Q log v := by
  constructor
  · rintro ⟨before, w, after, rfl, hw, hvalue, hafter⟩
    refine ⟨before, w, after, rfl, (h w (by simp)).mp hw, hvalue, fun u hu hQ => ?_⟩
    exact hafter u hu ((h u (by simp [hu])).mpr hQ)
  · rintro ⟨before, w, after, rfl, hw, hvalue, hafter⟩
    refine ⟨before, w, after, rfl, (h w (by simp)).mpr hw, hvalue, fun u hu hP => ?_⟩
    exact hafter u hu ((h u (by simp [hu])).mp hP)

/-! ### Bindings made by writes -/

namespace Bindings

variable {α : Type} {puts : List (Symbol × α)} {s : Symbol}

/-- The bindings that writes make, in the order given. -/
def ofPuts (puts : List (Symbol × α)) : Bindings α :=
  puts.foldl (fun b p => b.put p.1 p.2) empty

/-- Without puts there are no bindings. -/
@[simp] theorem ofPuts_nil : ofPuts ([] : List (Symbol × α)) = empty := rfl

/-- The last put is made on what the others leave. -/
@[simp] theorem ofPuts_concat (puts : List (Symbol × α)) (p : Symbol × α) :
    ofPuts (puts ++ [p]) = (ofPuts puts).put p.1 p.2 := by
  simp [ofPuts]

/-- The symbols that are bound are those that were put. -/
theorem mem_keys_ofPuts : s ∈ (ofPuts puts).keys ↔ s ∈ puts.map (·.1) := by
  induction puts using List.reverseRecOn with
  | nil => simp [ofPuts, keys, empty]
  | append_singleton puts p ih =>
    rw [ofPuts_concat, keys_put, List.map_append, List.mem_append, ← ih]
    split
    · next hold =>
      constructor
      · exact .inl
      · rintro (h | h)
        · exact h
        · rw [List.map_singleton, List.mem_singleton] at h
          exact h ▸ hold
    · simp

/-- No symbol has two entries. -/
theorem nodup_keys_ofPuts (puts : List (Symbol × α)) : (ofPuts puts).keys.Nodup := by
  induction puts using List.reverseRecOn with
  | nil => exact List.nodup_nil
  | append_singleton puts p ih =>
    rw [ofPuts_concat, keys_put]
    split
    · exact ih
    · next hnew => exact List.concat_eq_append ▸ ih.concat hnew

/-- **Order.** The symbols stand in the order in which they were first written. -/
theorem keys_ofPuts (puts : List (Symbol × α)) :
    (ofPuts puts).keys = (puts.map (·.1)).eraseDups := by
  induction puts using List.reverseRecOn with
  | nil => rfl
  | append_singleton puts p ih =>
    have hremove : [p.1].removeAll (puts.map (·.1)) =
        if p.1 ∈ puts.map (·.1) then [] else [p.1] := by
      rw [List.removeAll, List.filter_singleton, List.elem_eq_mem]
      split <;> simp_all
    rw [ofPuts_concat, keys_put, List.map_append, List.map_singleton, List.eraseDups_append, ← ih,
      hremove]
    -- a key that was put before keeps its place
    by_cases hold : p.1 ∈ puts.map (·.1)
    · rw [if_pos (mem_keys_ofPuts.mpr hold), if_pos hold]
      exact (List.append_nil _).symm
    · rw [if_neg fun h => hold (mem_keys_ofPuts.mp h), if_neg hold]
      rfl

/-- **Values.** A symbol has the value that was written last. -/
theorem get?_ofPuts (puts : List (Symbol × α)) (s : Symbol) :
    (ofPuts puts).get? s = puts.reverse.lookup s := by
  induction puts using List.reverseRecOn with
  | nil => rfl
  | append_singleton puts p ih =>
    rw [ofPuts_concat, get?_put, List.reverse_append, List.reverse_singleton, List.singleton_append,
      List.lookup_cons, ih]
    by_cases hs : s = p.1
    · rw [if_pos hs, hs, beq_self_eq_true]
    · rw [if_neg hs, beq_eq_false_iff_ne.mpr hs]

/-- **Sizes.** Every symbol that was written counts once. -/
theorem size_ofPuts (puts : List (Symbol × α)) :
    (ofPuts puts).size = (puts.map (·.1)).toFinset.card := by
  have hkeys : (ofPuts puts).keys.toFinset = (puts.map (·.1)).toFinset := by
    ext s
    rw [List.mem_toFinset, List.mem_toFinset, mem_keys_ofPuts]
  rw [← hkeys, List.toFinset_card_of_nodup (nodup_keys_ofPuts puts), keys, List.length_map, size]

end Bindings

/-- What was written into a cell, in order. -/
def putsTo (log : List (Write kind)) (r : Ref kind) : List (Symbol × Value) :=
  (log.filter (·.cell = r)).map fun w => (w.key, w.value)

/-- Nothing was put on any cell where nothing was written. -/
@[simp] theorem putsTo_nil (r : Ref kind) : putsTo [] r = [] := rfl

/-- A write is a put on its own cell and on no other. -/
theorem putsTo_concat (log : List (Write kind)) (w : Write kind) (r : Ref kind) :
    putsTo (log ++ [w]) r =
      if w.cell = r then putsTo log r ++ [(w.key, w.value)] else putsTo log r := by
  unfold putsTo
  by_cases h : w.cell = r <;> simp [h]

/-- In the bindings that are made of the writes to a cell a symbol has the value written last. -/
theorem get?_ofPuts_putsTo (log : List (Write kind)) (r : Ref kind) (s : Symbol) (v : Value) :
    (Bindings.ofPuts (putsTo log r)).get? s = some v ↔
      LastWrite (fun w => w.cell = r ∧ w.key = s) log v := by
  induction log using List.reverseRecOn with
  | nil =>
    rw [putsTo_nil, Bindings.ofPuts_nil, Bindings.get?_empty]
    exact iff_of_false nofun not_lastWrite_nil
  | append_singleton log w ih =>
    rw [putsTo_concat]
    -- the newest write is the last one, or is about another cell or key
    by_cases hw : w.cell = r ∧ w.key = s
    · rw [if_pos hw.1, Bindings.ofPuts_concat, Bindings.get?_put, if_pos hw.2.symm,
        Option.some.injEq]
      exact (lastWrite_concat_of_pos (P := fun w => w.cell = r ∧ w.key = s) hw).symm
    · rw [lastWrite_concat_of_neg hw, ← ih]
      split
      · next hcell =>
        have hkey : s ≠ w.key := fun h => hw ⟨hcell, h.symm⟩
        rw [Bindings.ofPuts_concat, Bindings.get?_put, if_neg hkey]
      · rfl

/-! ### Stores that a log records -/

namespace Store

variable {s s' : Store kind (Bindings Value)} {r : Ref kind} {key : Symbol}

/-- The store after a write. -/
def put (s : Store kind (Bindings Value)) (w : Write kind) : Store kind (Bindings Value) :=
  s.write w.cell ((s.read w.cell).put w.key w.value)

/-- A write puts on its own cell, and the others read as before. -/
theorem read_put (h : s.Contains w.cell) (r : Ref kind) :
    (s.put w).read r = if r = w.cell then (s.read r).put w.key w.value else s.read r := by
  rw [put, read_write h]
  split
  · next heq => rw [heq]
  · rfl

/-- Writing makes no cell. -/
theorem contains_put : (s.put w).Contains r ↔ s.Contains r := by
  show r.index < (s.put w).size ↔ r.index < s.size
  rw [put, size_write]

/-- No number of writes makes a cell. -/
theorem contains_foldl_put : (log.foldl put s).Contains r ↔ s.Contains r := by
  induction log generalizing s with
  | nil => rfl
  | cons w log ih => rw [List.foldl_cons, ih, contains_put]

/-- Writing a cell that was never made does nothing. -/
theorem put_of_not_contains (h : ¬ s.Contains w.cell) : s.put w = s := by
  have hbound : ¬ w.cell.index < s.cells.size := h
  rw [put, write, Array.setIfInBounds, dif_neg hbound]

/-- What is read under a symbol is changed by no write of other cells and other symbols. -/
theorem get?_read_put (h : w.cell = r → w.key ≠ key) :
    ((s.put w).read r).get? key = (s.read r).get? key := by
  by_cases hw : s.Contains w.cell
  · rw [read_put hw]
    split
    · next hr => rw [Bindings.get?_put, if_neg (h hr.symm).symm]
    · rfl
  · rw [put_of_not_contains hw]

/-- What no write is about stays. -/
theorem get?_read_foldl_put (h : ∀ w ∈ log, w.cell = r → w.key ≠ key) :
    ((log.foldl put s).read r).get? key = (s.read r).get? key := by
  induction log generalizing s with
  | nil => rfl
  | cons w log ih =>
    obtain ⟨hw, hrest⟩ := List.forall_mem_cons.mp h
    rw [List.foldl_cons, ih hrest, get?_read_put hw]

/-- Writes of one cell make its bindings. -/
theorem read_foldl_put_self (h : s.Contains r) (puts : List (Symbol × Value)) :
    ((puts.map fun p => ⟨r, p.1, p.2⟩).foldl put s).read r =
      puts.foldl (fun b p => b.put p.1 p.2) (s.read r) := by
  induction puts generalizing s with
  | nil => rfl
  | cons p puts ih =>
    have hp : (s.put ⟨r, p.1, p.2⟩).read r = (s.read r).put p.1 p.2 := by
      rw [read_put h, if_pos rfl]
    rw [List.map_cons, List.foldl_cons, List.foldl_cons, ih (contains_put.mpr h), hp]

/-- What a symbol has in a cell is still what was written last, in a sense of the log's own, after
    more writes, of which those that are logged have cells and symbols that say the same, and the
    others are of other symbols. -/
theorem get?_read_foldl_put_filter_iff {f : Write kind → Write kind} {more : List (Write kind)}
    {q : Write kind → Bool} (hcontains : ∀ w ∈ more, s.Contains w.cell)
    (hf : ∀ w, (f w).cell = w.cell ∧ (f w).value = w.value)
    (hP : ∀ w ∈ more, q w = true ∧ P w ↔ w.cell = r ∧ (f w).key = key)
    (hlog : ∀ v, (s.read r).get? key = some v ↔ LastWrite P log v) (v : Value) :
    (((more.map f).foldl put s).read r).get? key = some v ↔
      LastWrite P (log ++ more.filter q) v := by
  induction more using List.reverseRecOn with
  | nil => rw [List.map_nil, List.foldl_nil, List.filter_nil, List.append_nil, hlog]
  | append_singleton more w ih =>
    have hbefore := ih (fun u hu => hcontains u (List.mem_append_left _ hu))
      (fun u hu => hP u (List.mem_append_left _ hu))
    have hw : ((more.map f).foldl put s).Contains (f w).cell := by
      rw [contains_foldl_put, (hf w).1]
      exact hcontains w (by simp)
    rw [List.map_append, List.map_singleton, List.foldl_append, List.foldl_cons, List.foldl_nil,
      List.filter_append, ← List.append_assoc]
    have hlast := hP w (by simp)
    by_cases hPw : q w = true ∧ P w
    · -- the last write is to this cell under this symbol, so it is the one that is read
      obtain ⟨hcell, hkey⟩ := hlast.mp hPw
      rw [List.filter_cons_of_pos hPw.1, List.filter_nil, lastWrite_concat_of_pos hPw.2, read_put hw,
        if_pos ((hf w).1.trans hcell).symm, Bindings.get?_put, if_pos hkey.symm, Option.some.injEq,
        (hf w).2]
    · have hother : (f w).cell = r → (f w).key ≠ key :=
        fun hcell hkey => hPw (hlast.mpr ⟨(hf w).1.symm.trans hcell, hkey⟩)
      have hrest : ∀ u ∈ [w].filter q, ¬ P u := by
        intro u hu hPu
        obtain ⟨huw, hqu⟩ := List.mem_filter.mp hu
        rw [List.mem_singleton.mp huw] at hqu hPu
        exact hPw ⟨hqu, hPu⟩
      rw [lastWrite_append_of_neg hrest, get?_read_put hother, hbefore]

/-- What is read where all of several writes are logged is the value of the last one. -/
theorem get?_read_foldl_put_iff {f : Write kind → Write kind} {more : List (Write kind)}
    (hcontains : ∀ w ∈ more, s.Contains w.cell)
    (hf : ∀ w, (f w).cell = w.cell ∧ (f w).value = w.value)
    (hP : ∀ w ∈ more, P w ↔ w.cell = r ∧ (f w).key = key)
    (hlog : ∀ v, (s.read r).get? key = some v ↔ LastWrite P log v) (v : Value) :
    (((more.map f).foldl put s).read r).get? key = some v ↔ LastWrite P (log ++ more) v := by
  have hall := get?_read_foldl_put_filter_iff (q := fun _ => true) hcontains hf
    (fun w hw => (and_iff_right rfl).trans (hP w hw)) hlog v
  rwa [List.filter_true] at hall

/-- A cell that was never made is read as one without bindings. -/
theorem read_of_not_contains (h : ¬ s.Contains r) : s.read r = .empty := by
  have hbound : s.cells.size ≤ r.index := Nat.le_of_not_lt h
  rw [read, Array.getD_eq_getD_getElem?, Array.getElem?_eq_none hbound]
  rfl

/-- Every cell holds what the writes of the log to it have made, and the log is of cells that were
    made. -/
structure Records (s : Store kind (Bindings Value)) (log : List (Write kind)) : Prop where
  read_eq : ∀ r, s.read r = .ofPuts (putsTo log r)
  contains : ∀ w ∈ log, s.Contains w.cell

namespace Records

/-- A store without cells is what it is without writes. -/
theorem empty : (Store.empty : Store kind (Bindings Value)).Records [] := by
  refine ⟨fun r => read_of_not_contains ?_, by simp⟩
  exact Nat.not_lt_zero _

/-- **A new cell** was never written. -/
theorem alloc (h : s.Records log) : (s.alloc .empty).2.Records log := by
  have hextends : s.size ≤ (s.alloc .empty).2.size := by
    rw [size_alloc]
    omega
  refine ⟨fun r => ?_, fun w hw => Nat.lt_of_lt_of_le (h.contains w hw) hextends⟩
  by_cases hr : s.Contains r
  · rw [read_alloc hr, h.read_eq]
  · rw [← h.read_eq, read_of_not_contains hr]
    -- the new cell is empty, and nothing was written to it yet
    by_cases hnew : r = (s.alloc .empty).1
    · rw [hnew, read_alloc_self]
    · apply read_of_not_contains
      intro hlt
      have hlt : r.index < s.size + 1 := size_alloc s _ ▸ hlt
      have hge : ¬ r.index < s.size := hr
      refine hnew (congrArg Ref.mk ?_)
      show r.index = s.size
      omega

/-- **A write** is recorded. -/
theorem put (h : s.Records log) (hw : s.Contains w.cell) : (s.put w).Records (log ++ [w]) := by
  refine ⟨fun r => ?_, fun u hu => ?_⟩
  · rw [read_put hw, putsTo_concat, h.read_eq]
    by_cases hr : r = w.cell
    · rw [if_pos hr, if_pos hr.symm, Bindings.ofPuts_concat]
    · rw [if_neg hr, if_neg (Ne.symm hr)]
  · rw [contains_put]
    rcases List.mem_append.mp hu with hu | hu
    · exact h.contains u hu
    · rwa [List.mem_singleton.mp hu]

/-- Any number of writes to cells that are there are recorded. -/
theorem foldl_put {more : List (Write kind)} (h : s.Records log)
    (hmore : ∀ w ∈ more, s.Contains w.cell) : (more.foldl Store.put s).Records (log ++ more) := by
  induction more generalizing s log with
  | nil => rwa [List.append_nil]
  | cons w more ih =>
    rw [List.foldl_cons, List.append_cons]
    refine ih (h.put (hmore w (by simp))) fun u hu => ?_
    rw [contains_put]
    exact hmore u (by simp [hu])

/-- **Reads.** What is read is what was written last. -/
theorem get?_eq_some_iff (h : s.Records log) :
    (s.read r).get? key = some v ↔ LastWrite (fun w => w.cell = r ∧ w.key = key) log v := by
  rw [h.read_eq, get?_ofPuts_putsTo]

/-- Nothing is bound to a key exactly if no write was about it. -/
theorem get?_eq_none_iff (h : s.Records log) :
    (s.read r).get? key = none ↔ ∀ w ∈ log, w.cell = r → w.key ≠ key := by
  have hsome : (∃ v, (s.read r).get? key = some v) ↔ ∃ w ∈ log, w.cell = r ∧ w.key = key := by
    simp only [h.get?_eq_some_iff]
    exact exists_lastWrite_iff
  rw [Option.eq_none_iff_forall_ne_some, ← not_exists, hsome]
  simp

end Records

end Store

end LispObjects
