import LispObjects.Proofs.Symbol.Interning
import LispObjects.Realm.Basic

namespace LispObjects

/-!
# Computations that hand out symbols

A new realm is made by computations on a symbol table that do nothing to it but intern.

* `OnlyInterns m` — what interning keeps of a table, `m` keeps;
* `mapM_internFor_run` — one symbol for each member of a list: the results are those that the table gives
  afterwards;
* `Names.FoundIn` — the names that a realm uses are symbols of a table, as they are of the one that
  they were made in (`Names.foundIn_intern`).
-/

variable {α β γ : Type} {t t' : SymbolTable} {m : StateM SymbolTable α} {f : α → StateM SymbolTable β}

/-! ### Interning and nothing else -/

/-- Every property of a table that interning keeps is kept. -/
def OnlyInterns (m : StateM SymbolTable α) : Prop :=
  ∀ P : SymbolTable → Prop, (∀ t name space, P t → P (t.intern name space).2) →
    ∀ t, P t → P (m.run t).2

namespace OnlyInterns

/-- Interning one name. -/
theorem intern (name : String) (space : Namespace) :
    OnlyInterns (modifyGet (·.intern name space)) :=
  fun _ hkeep t h => hkeep t name space h

/-- Giving a value interns nothing. -/
theorem pure (a : α) : OnlyInterns (Pure.pure a : StateM SymbolTable α) :=
  fun _ _ _ h => h

/-- One such step after another. -/
theorem bind (hm : OnlyInterns m) (hf : ∀ a, OnlyInterns (f a)) : OnlyInterns (m >>= f) :=
  fun P hkeep t h => hf (m.run t).1 P hkeep (m.run t).2 (hm P hkeep t h)

/-- One such step for each item of a list. -/
theorem mapM (hf : ∀ a, OnlyInterns (f a)) (as : List α) : OnlyInterns (as.mapM f) := by
  induction as with
  | nil => exact pure []
  | cons a as ih =>
    rw [List.mapM_cons]
    exact bind (hf a) fun _ => bind ih fun _ => pure _

/-- What was found is found. -/
theorem extends_run (hm : OnlyInterns m) (t : SymbolTable) : t.Extends (m.run t).2 :=
  hm (t.Extends ·) (fun _ name space h => h.trans (SymbolTable.extends_intern _ name space)) t (.refl t)

/-- The table stays the one that it is. -/
theorem id_run (hm : OnlyInterns m) (t : SymbolTable) : (m.run t).2.id = t.id :=
  hm (·.id = t.id) (fun _ name space h => (SymbolTable.id_intern _ name space).trans h) t rfl

/-- Interning keeps a table well-formed. -/
theorem wellFormed_run (hm : OnlyInterns m) (ht : t.WellFormed) : (m.run t).2.WellFormed :=
  hm SymbolTable.WellFormed (fun _ name space h => h.intern name space) t ht

end OnlyInterns

/-- Going on after a symbol was interned. -/
theorem run_intern_bind (name : String) (space : Namespace) (k : Symbol → StateM SymbolTable α)
    (t : SymbolTable) :
    ((modifyGet fun t : SymbolTable => t.intern name space) >>= k).run t =
      (k (t.intern name space).1).run (t.intern name space).2 := by
  rw [StateT.run_bind]
  rfl

/-- A value is given without a step on the table. -/
theorem run_pure_symbolTable (a : α) (t : SymbolTable) :
    (pure a : StateM SymbolTable α).run t = (a, t) := by
  rw [StateT.run_pure]
  rfl

/-- The computation that makes one thing of a symbol. -/
def internFor (text : α → String) (space : Namespace) (g : α → Symbol → γ) (a : α) :
    StateM SymbolTable γ := do
  let s ← modifyGet (·.intern (text a) space)
  return g a s

/-- Interning a name for an item. -/
theorem onlyInterns_internFor (text : α → String) (space : Namespace) (g : α → Symbol → γ) (a : α) :
    OnlyInterns (internFor text space g a) :=
  .bind (.intern _ _) fun _ => .pure _

/-- The list's first member is dealt with first. -/
theorem mapM_internFor_cons (text : α → String) (space : Namespace) (g : α → Symbol → γ) (a : α)
    (as : List α) (t : SymbolTable) :
    ((a :: as).mapM (internFor text space g)).run t =
      (g a (t.intern (text a) space).1 ::
          ((as.mapM (internFor text space g)).run (t.intern (text a) space).2).1,
        ((as.mapM (internFor text space g)).run (t.intern (text a) space).2).2) := by
  rw [List.mapM_cons]
  rfl

/-- **One symbol each.** A list of things is made of the symbols that the table finds ever after. -/
theorem mapM_internFor_run (text : α → String) (space : Namespace) (g : α → Symbol → γ)
    (as : List α) (t : SymbolTable)
    (ht' : ((as.mapM (internFor text space g)).run t).2.Extends t') :
    ((as.mapM (internFor text space g)).run t).1 =
        as.map (fun a => g a (t'.intern (text a) space).1) ∧
      ∀ a ∈ as, t'.find? (text a) space = some (t'.intern (text a) space).1 := by
  induction as generalizing t with
  | nil => exact ⟨rfl, by simp⟩
  | cons a as ih =>
    rw [mapM_internFor_cons] at ht' ⊢
    obtain ⟨hresults, hfound⟩ := ih _ ht'
    have hrest := (OnlyInterns.mapM (onlyInterns_internFor text space g) as).extends_run
      (t.intern (text a) space).2
    -- a name that an earlier table has is interned by a later one without a change
    have hself : t'.intern (text a) space = ((t.intern (text a) space).1, t') :=
      (hrest.trans ht').intern_eq
    refine ⟨?_, List.forall_mem_cons.mpr ⟨?_, hfound⟩⟩
    · rw [List.map_cons, hresults, hself]
    · have hfind := t'.find?_intern (text a) space
      rwa [hself] at hfind ⊢

/-! ### The names of a realm -/

/-- Each of the names is the variable symbol that the table has for it. -/
structure Names.FoundIn (n : Names) (t : SymbolTable) : Prop where
  message : t.find? "message" .vars = some n.message
  datum : t.find? "datum" .vars = some n.datum
  expectedType : t.find? "expected-type" .vars = some n.expectedType
  symbol : t.find? "symbol" .vars = some n.symbol
  environment : t.find? "environment" .vars = some n.environment
  object : t.find? "object" .vars = some n.object
  slotName : t.find? "slot-name" .vars = some n.slotName
  classSlot : t.find? "class" .vars = some n.classSlot
  methodName : t.find? "method-name" .vars = some n.methodName
  stream : t.find? "stream" .vars = some n.stream
  prompt : t.find? "prompt" .vars = some n.prompt
  value : t.find? "value" .vars = some n.value
  or : t.find? "or" .vars = some n.or

/-- They stay the table's symbols. -/
theorem Names.FoundIn.of_extends {n : Names} (h : n.FoundIn t) (ht : t.Extends t') : n.FoundIn t' where
  message := ht _ _ _ h.message
  datum := ht _ _ _ h.datum
  expectedType := ht _ _ _ h.expectedType
  symbol := ht _ _ _ h.symbol
  environment := ht _ _ _ h.environment
  object := ht _ _ _ h.object
  slotName := ht _ _ _ h.slotName
  classSlot := ht _ _ _ h.classSlot
  methodName := ht _ _ _ h.methodName
  stream := ht _ _ _ h.stream
  prompt := ht _ _ _ h.prompt
  value := ht _ _ _ h.value
  or := ht _ _ _ h.or

/-- The names are made one after the other, and none of them takes another one's place. -/
theorem Names.foundIn_intern (t : SymbolTable) :
    (Names.intern.run t).1.FoundIn (Names.intern.run t).2 := by
  unfold Names.intern
  simp only [run_intern_bind, run_pure_symbolTable]
  constructor <;> simp [SymbolTable.find?_intern_eq]

/-- The names of a realm are interned and nothing else is done. -/
theorem Names.onlyInterns_intern : OnlyInterns Names.intern := by
  intro P hkeep t h
  unfold Names.intern
  simp only [run_intern_bind, run_pure_symbolTable]
  repeat' apply hkeep
  exact h

end LispObjects
