import LispObjects.Proofs.Action.MakeClass
import LispObjects.Proofs.Action.RealmFrame
import LispObjects.Proofs.Class.Order
import LispObjects.Proofs.Realm.WellFormed
import LispObjects.World
import Mathlib.Data.List.Induction

namespace LispObjects.World

/-!
# Runs of worlds

A run is a list of events in any order: new realms, and operations in any of the realms, with values
passed between them at will.  This file says once what an event can do to the class graph of a realm
and carries invariants of class graphs along a run.

* `Event`, `run` — events, and the world that they lead to;
* `MadeIn`, `log` — what the events of a run have made, and what was logged of them;
* `graph?`, `graph?_after` — the class graph of a realm, and all that an event can make of it;
* `graph?_run_induction` — what every new class keeps, holds of the graph after every run;
* `OwnSuperclasses`, `ordered_run` — a realm that is given no superclass from outside its graph has
  an ordered graph.
-/

variable {w : World} {e : Event} {events : List Event} {i j : Nat} {r : Realm} {g : ClassGraph}
  {config : Config} {op : Operation} {name : Symbol} {v : Value} {c : ClassId}

/-! ### Events -/

/-- What can happen to a world. -/
inductive Event where
  /-- A realm is added. -/
  | newRealm (config : Config)
  /-- A realm performs an operation. -/
  | perform (i : Nat) (op : Operation)

/-- The world after an event. -/
def after (w : World) : Event → World
  | .newRealm config => w.addRealm config
  | .perform i op => (w.perform i op).2

/-- The world that a run of events leads to, from one without realms. -/
def run (events : List Event) : World :=
  events.foldl after empty

/-- Before any event there are no realms and nothing is in the heap. -/
@[simp] theorem run_nil : run [] = empty := rfl

/-- The last event of a run happens to the world that the others lead to. -/
@[simp] theorem run_concat (events : List Event) (e : Event) :
    run (events ++ [e]) = (run events).after e := by
  simp [run]

/-- What holds of every event of a run at its time holds of those before the last one, and of that. -/
theorem forall_past_concat {P : List Event → Event → Prop} :
    (∀ past event, past ++ [event] <+: events ++ [e] → P past event) ↔
      (∀ past event, past ++ [event] <+: events → P past event) ∧ P events e := by
  constructor
  · intro h
    refine ⟨fun past event hpast => ?_, h events e (List.prefix_refl _)⟩
    exact h past event (hpast.trans (List.prefix_append _ _))
  · rintro ⟨hbefore, hlast⟩ past event hpast
    rcases List.prefix_concat_iff.mp hpast with heq | hpast
    · obtain ⟨rfl, hevent⟩ := List.append_inj' heq rfl
      rw [List.singleton_inj.mp hevent]
      exact hlast
    · exact hbefore past event hpast

/-- Of the first event it holds if it holds without a past. -/
theorem forall_past_singleton {P : List Event → Event → Prop} :
    (∀ past event, past ++ [event] <+: [e] → P past event) ↔ P [] e := by
  rw [← List.nil_append [e], forall_past_concat]
  refine and_iff_right fun past event hpast => ?_
  simp at hpast

/-! ### What is made and logged along a run -/

section

variable {α β : Type} {makes : World → Event → α → Prop} {a b : α} {key : α → β}

/-- Some event of the run made it. -/
def MadeIn (makes : World → Event → α → Prop) (events : List Event) (a : α) : Prop :=
  ∃ past event, past ++ [event] <+: events ∧ makes (run past) event a

/-- Nothing is made where nothing happens. -/
theorem not_madeIn_nil : ¬ MadeIn makes [] a := by
  rintro ⟨past, event, hpast, -⟩
  simp at hpast

/-- What is made in a run is made in each longer one. -/
theorem MadeIn.later {events' : List Event} (h : MadeIn makes events a)
    (hevents : events <+: events') : MadeIn makes events' a := by
  obtain ⟨past, event, hpast, hmakes⟩ := h
  exact ⟨past, event, hpast.trans hevents, hmakes⟩

/-- It is made by the last event, or in the run before it. -/
theorem madeIn_concat :
    MadeIn makes (events ++ [e]) a ↔ MadeIn makes events a ∨ makes (run events) e a := by
  constructor
  · rintro ⟨past, event, hpast, hmakes⟩
    rcases List.prefix_concat_iff.mp hpast with heq | hpast
    · obtain ⟨rfl, hevent⟩ := List.append_inj' heq rfl
      rw [List.singleton_inj.mp hevent] at hmakes
      exact .inr hmakes
    · exact .inl ⟨past, event, hpast, hmakes⟩
  · rintro (h | h)
    · exact h.later (List.prefix_append _ _)
    · exact ⟨events, e, List.prefix_refl _, h⟩

/-- **Identity.** What is made is known by its key, if an event makes one thing at most, and nothing
    with the key of something that was made before. -/
theorem MadeIn.eq_of_key (hevent : ∀ w e a b, makes w e a → makes w e b → a = b)
    (hnew : ∀ past e a b, past ++ [e] <+: events → MadeIn makes past a → makes (run past) e b →
      key a ≠ key b)
    (h : MadeIn makes events a) (h' : MadeIn makes events b) (hkey : key a = key b) : a = b := by
  induction events using List.reverseRecOn with
  | nil => exact absurd h not_madeIn_nil
  | append_singleton events e ih =>
    -- both are old, one is new, or both are made by the last event
    rcases madeIn_concat.mp h with h | h <;> rcases madeIn_concat.mp h' with h' | h'
    · refine ih (fun past e' a b hpast => hnew past e' a b ?_) h h'
      exact hpast.trans (List.prefix_append _ _)
    · exact absurd hkey (hnew events e a b (List.prefix_refl _) h h')
    · exact absurd hkey.symm (hnew events e b a (List.prefix_refl _) h' h)
    · exact hevent _ e a b h h'

/-- What is logged of the events that happen to `w`, from the oldest to the newest. -/
def logFrom (f : World → Event → List α) (w : World) : List Event → List α
  | [] => []
  | e :: rest => f w e ++ logFrom f (w.after e) rest

/-- All that is logged of a run. -/
def log (f : World → Event → List α) (events : List Event) : List α :=
  logFrom f empty events

/-- A log of two runs, one after the other, is their two logs. -/
theorem logFrom_append (f : World → Event → List α) (w : World) (events rest : List Event) :
    logFrom f w (events ++ rest) = logFrom f w events ++ logFrom f (events.foldl after w) rest := by
  induction events generalizing w with
  | nil => rfl
  | cons e events ih =>
    rw [List.cons_append, logFrom, ih, logFrom, List.append_assoc, List.foldl_cons]

/-- The last event adds its entries at the end. -/
theorem log_concat (f : World → Event → List α) (events : List Event) (e : Event) :
    log f (events ++ [e]) = log f events ++ f (run events) e := by
  rw [log, logFrom_append]
  show log f events ++ (f (run events) e ++ []) = _
  rw [List.append_nil]

end

/-! ### Realms after an event -/

/-- A new realm comes after those that are there. -/
theorem realms_newRealm (w : World) (config : Config) :
    (w.after (.newRealm config)).realms =
      w.realms.push (Realm.boot config w.realms.size w.heap).1 := by
  rw [after, addRealm]

/-- An operation is performed in its realm's image. -/
theorem perform_of_realm (h : w.realms[i]? = some r) (op : Operation) :
    w.perform i op =
      (some (Image.perform ⟨w.heap, r⟩ op).1,
        ⟨(Image.perform ⟨w.heap, r⟩ op).2.heap,
          w.realms.setIfInBounds i (Image.perform ⟨w.heap, r⟩ op).2.realm⟩) := by
  obtain ⟨heap, realms⟩ := w
  simp only [perform]
  rw [h]

/-- An operation replaces the realm that performs it, and no other. -/
theorem realms_perform (h : w.realms[i]? = some r) (op : Operation) :
    (w.after (.perform i op)).realms =
      w.realms.setIfInBounds i (Image.perform ⟨w.heap, r⟩ op).2.realm := by
  rw [after, perform_of_realm h]

/-- The realm that performs an operation is left as its image is. -/
theorem realm_perform_self (h : w.realms[i]? = some r) (op : Operation) :
    (w.after (.perform i op)).realms[i]? = some (Image.perform ⟨w.heap, r⟩ op).2.realm := by
  obtain ⟨hlt, -⟩ := Array.getElem?_eq_some_iff.mp h
  rw [realms_perform h, Array.getElem?_setIfInBounds_self_of_lt hlt]

/-- An operation whose action gives an answer leaves what the action leaves. -/
theorem perform_of_runOn_ok {middle : Image} {answer : Answer} (h : w.realms[i]? = some r)
    (hrun : op.action.runOn ⟨w.heap, r⟩ = (.ok answer, middle)) :
    ∃ after, w.perform i op = (some (.ok answer), after) ∧ after.heap = middle.heap ∧
      after.realms[i]? = some middle.realm := by
  have hperform := perform_of_realm h op
  rw [Image.perform_of_ok hrun] at hperform
  obtain ⟨hlt, -⟩ := Array.getElem?_eq_some_iff.mp h
  exact ⟨_, hperform, rfl, Array.getElem?_setIfInBounds_self_of_lt hlt⟩

/-- An operation whose action fails leaves the report of the fault besides. -/
theorem perform_of_runOn_error {middle : Image} {f : Fault} (h : w.realms[i]? = some r)
    (hrun : op.action.runOn ⟨w.heap, r⟩ = (.error f, middle)) :
    ∃ after, w.perform i op =
        (some (.error (middle.realm.report f middle.heap).1), after) ∧
      after.heap = (middle.realm.report f middle.heap).2 ∧
      after.realms[i]? = some middle.realm := by
  have hperform := perform_of_realm h op
  rw [Image.perform_of_error hrun] at hperform
  obtain ⟨hlt, -⟩ := Array.getElem?_eq_some_iff.mp h
  exact ⟨_, hperform, rfl, Array.getElem?_setIfInBounds_self_of_lt hlt⟩

/-- Where there is no realm nothing happens. -/
theorem perform_of_none (h : w.realms[i]? = none) (op : Operation) :
    w.after (.perform i op) = w := by
  obtain ⟨heap, realms⟩ := w
  simp only [after, perform]
  rw [h]

/-- Without a realm there is no answer. -/
theorem answer_of_none (h : w.realms[i]? = none) (op : Operation) : (w.perform i op).1 = none := by
  obtain ⟨heap, realms⟩ := w
  simp only [perform]
  rw [h]

/-- What has performed an operation is a realm. -/
theorem exists_realm_of_answer {answer : Except Condition Answer}
    (h : (w.perform i op).1 = some answer) : ∃ r, w.realms[i]? = some r := by
  cases hr : w.realms[i]? with
  | none =>
    rw [answer_of_none hr] at h
    cases h
  | some r => exact ⟨r, rfl⟩

/-- There is one realm more. -/
@[simp] theorem size_realms_newRealm (w : World) (config : Config) :
    (w.after (.newRealm config)).realms.size = w.realms.size + 1 := by
  rw [realms_newRealm, Array.size_push]

/-! ### Class graphs after an event -/

/-- The class graph of a realm. -/
def graph? (w : World) (i : Nat) : Option ClassGraph :=
  w.realms[i]?.map Realm.classes

/-- The graph of a realm that is there is the one that it holds. -/
theorem graph?_of_realm (h : w.realms[i]? = some r) : w.graph? i = some r.classes := by
  simp [graph?, h]

/-- Only a place with a realm has a graph. -/
theorem graph?_eq_some_iff : w.graph? i = some g ↔ ∃ r, w.realms[i]? = some r ∧ r.classes = g := by
  simp [graph?]

/-- The two realms have the same class graph. -/
def SameClasses (r r' : Realm) : Prop :=
  r'.classes = r.classes

instance : RealmFrame SameClasses where
  refl _ := rfl
  trans _ _ _ h h' := h'.trans h
  intern _ _ _ := rfl

/-- No operation but the making of a class changes a class graph. -/
theorem classes_perform (h : ∀ name v, op ≠ .makeClass name v) (image : Image) :
    (image.perform op).2.realm.classes = image.realm.classes := by
  rw [Image.realm_perform]
  exact Operation.keeps_realm (Q := SameClasses) h image

/-- A new realm has a graph of the built-in classes. -/
theorem exists_classes_boot (config : Config) (tableId : Nat) (h : Heap) :
    ∃ t, (Realm.boot config tableId h).1.classes = (ClassGraph.builtIn.run t).1 := by
  obtain ⟨t, -, -, -, -, hclasses, -⟩ := Realm.exists_boot config tableId h
  exact ⟨t, hclasses⟩

/-- A new realm has the built-in classes, recorded with names of its own symbol table. -/
theorem graph?_newRealm_self (w : World) (config : Config) :
    ∃ t, (w.after (.newRealm config)).graph? w.realms.size = some (ClassGraph.builtIn.run t).1 := by
  obtain ⟨t, ht⟩ := exists_classes_boot config w.realms.size w.heap
  exact ⟨t, by rw [graph?, realms_newRealm, Array.getElem?_push_size, Option.map_some, ht]⟩

/-- The graph of a new realm is ordered, and the realm's first class will have the handle 37. -/
theorem graph?_newRealm_next (w : World) (config : Config) :
    ∃ g, (w.after (.newRealm config)).graph? w.realms.size = some g ∧ g.Ordered ∧
      g.next = ⟨37⟩ := by
  obtain ⟨t, ht⟩ := graph?_newRealm_self w config
  refine ⟨_, ht, ClassGraph.ordered_builtIn t, ?_⟩
  rw [ClassGraph.next, ClassGraph.size_builtIn]
  rfl

/-- The graphs of the realms before it stay. -/
theorem graph?_newRealm_of_ne (h : i ≠ w.realms.size) (config : Config) :
    (w.after (.newRealm config)).graph? i = w.graph? i := by
  rw [graph?, graph?, realms_newRealm, Array.getElem?_push, if_neg h]

/-- The first realm of a world. -/
theorem graph?_run_newRealm (config : Config) :
    ∃ g, (run [.newRealm config]).graph? 0 = some g ∧ g.Ordered ∧ g.next = ⟨37⟩ := by
  have hrun : run [.newRealm config] = empty.after (.newRealm config) := run_concat [] _
  rw [hrun]
  exact graph?_newRealm_next empty config

/-- The first two realms of a world. -/
theorem graph?_run_two_realms (config config' : Config) :
    ∃ g h, (run [.newRealm config, .newRealm config']).graph? 0 = some g ∧
      (run [.newRealm config, .newRealm config']).graph? 1 = some h ∧
      g.Ordered ∧ g.next = ⟨37⟩ ∧ h.Ordered ∧ h.next = ⟨37⟩ := by
  have hrun : run [.newRealm config, .newRealm config'] =
      (run [.newRealm config]).after (.newRealm config') := run_concat [_] _
  have hsize : (run [.newRealm config]).realms.size = 1 := by
    rw [← List.nil_append [Event.newRealm config], run_concat, run_nil, size_realms_newRealm]
    rfl
  obtain ⟨g, hg, ho, hnext⟩ := graph?_run_newRealm config
  obtain ⟨h, hh, ho', hnext'⟩ := graph?_newRealm_next (run [.newRealm config]) config'
  rw [hsize] at hh
  -- the second realm leaves the graph of the first as it is
  have hne : 0 ≠ (run [.newRealm config]).realms.size := by omega
  rw [hrun]
  exact ⟨g, h, (graph?_newRealm_of_ne hne config').trans hg, hh, ho, hnext, ho', hnext'⟩

/-- The graph of another realm stays. -/
theorem graph?_perform_of_ne (h : i ≠ j) (op : Operation) :
    (w.after (.perform i op)).graph? j = w.graph? j := by
  cases hr : w.realms[i]? with
  | none => rw [perform_of_none hr]
  | some r => rw [graph?, graph?, realms_perform hr, Array.getElem?_setIfInBounds_ne h]

/-- The realm that performs an operation gets the graph that the operation leaves. -/
theorem graph?_perform_self (h : w.realms[i]? = some r) (op : Operation) :
    (w.after (.perform i op)).graph? i =
      some (Image.perform ⟨w.heap, r⟩ op).2.realm.classes := by
  rw [graph?, realm_perform_self h, Option.map_some]

/-- What passes for a class makes one, and the answer is the next handle. -/
theorem answer_makeClass_of_hasType (h : w.realms[i]? = some r)
    (ht : r.hasType v (.builtIn .classObject) = true) (name : Symbol) :
    (w.perform i (.makeClass name v)).1 =
      some (.ok (.value (.classObject r.classes.next))) := by
  rw [perform_of_realm h, Image.perform_makeClass_ok ⟨w.heap, r⟩ name ht]

/-- A new class under an instance of `class` is added to the graph. -/
theorem graph?_makeClass_of_hasType (h : w.realms[i]? = some r)
    (ht : r.hasType v (.builtIn .classObject) = true) :
    (w.after (.perform i (.makeClass name v))).graph? i =
      some (r.classes.addStandard (r.symbols.convert name .vars).1 v.superclassHandle) := by
  rw [graph?_perform_self h]
  rw [Image.perform_makeClass_ok ⟨w.heap, r⟩ name ht, Image.classes_addClass]

/-- A new class under a class is added with the handle of the superclass as it was given. -/
theorem graph?_makeClass_classObject (hg : w.graph? i = some g) (hb : g.HasBuiltIns)
    (name : Symbol) (c : ClassId) :
    ∃ plain, (w.after (.perform i (.makeClass name (.classObject c)))).graph? i =
      some (g.addStandard plain c) := by
  obtain ⟨r, hr, rfl⟩ := graph?_eq_some_iff.mp hg
  exact ⟨_, graph?_makeClass_of_hasType hr (Realm.hasType_classObject hb c)⟩

/-- Anything else leaves the graph as it is. -/
theorem graph?_makeClass_of_not_hasType (h : w.realms[i]? = some r)
    (ht : r.hasType v (.builtIn .classObject) = false) :
    (w.after (.perform i (.makeClass name v))).graph? i = some r.classes := by
  rw [graph?_perform_self h]
  have hrefused : Image.RefusesClass ⟨w.heap, r⟩ name v := Image.refusesClass_of_not_hasType ht
  obtain ⟨_, after, hfail, -, hrealm, -⟩ := hrefused
  rw [hfail]
  exact congrArg (some ·.classes) hrealm

/-- **All that an event can do to a graph.** It is that of a new realm, it was there before, or it
    has got one class, in this very realm and under an instance of `class`. -/
theorem graph?_after (h : (w.after e).graph? i = some g) :
    (∃ config t, e = .newRealm config ∧ i = w.realms.size ∧ g = (ClassGraph.builtIn.run t).1) ∨
      w.graph? i = some g ∨
      ∃ name v r, e = .perform i (.makeClass name v) ∧ w.realms[i]? = some r ∧
        r.hasType v (.builtIn .classObject) = true ∧
        g = r.classes.addStandard (r.symbols.convert name .vars).1 v.superclassHandle := by
  -- only a class that its own realm makes changes a graph that is there
  cases e with
  | newRealm config =>
    by_cases hi : i = w.realms.size
    · subst hi
      obtain ⟨t, ht⟩ := graph?_newRealm_self w config
      rw [ht, Option.some.injEq] at h
      exact .inl ⟨config, t, rfl, rfl, h.symm⟩
    · rw [graph?_newRealm_of_ne hi] at h
      exact .inr (.inl h)
  | perform j op =>
    by_cases hj : j = i
    · subst hj
      cases hr : w.realms[j]? with
      | none =>
        rw [perform_of_none hr] at h
        exact .inr (.inl h)
      | some r =>
        by_cases hmake : ∃ name v, op = .makeClass name v
        · obtain ⟨name, v, rfl⟩ := hmake
          cases ht : r.hasType v (.builtIn .classObject) with
          | false =>
            rw [graph?_makeClass_of_not_hasType hr ht] at h
            exact .inr (.inl ((graph?_of_realm hr).trans h))
          | true =>
            rw [graph?_makeClass_of_hasType hr ht, Option.some.injEq] at h
            exact .inr (.inr ⟨name, v, r, rfl, rfl, ht, h.symm⟩)
        · have hkeep : ∀ name v, op ≠ .makeClass name v := fun name v hop => hmake ⟨name, v, hop⟩
          rw [graph?_perform_self hr, classes_perform hkeep] at h
          exact .inr (.inl ((graph?_of_realm hr).trans h))
    · rw [graph?_perform_of_ne hj] at h
      exact .inr (.inl h)

/-! ### Class graphs along a run -/

/-- **Invariants of a realm's graph.** What holds of every new realm's graph and is kept by every
    class that the realm makes on the way, holds of the realm's graph at the end. -/
theorem graph?_run_induction {P : ClassGraph → Prop}
    (new : ∀ t, P (ClassGraph.builtIn.run t).1)
    (add : ∀ past name v r, past ++ [.perform i (.makeClass name v)] <+: events →
      (run past).realms[i]? = some r → r.hasType v (.builtIn .classObject) = true →
      P r.classes → P (r.classes.addStandard (r.symbols.convert name .vars).1 v.superclassHandle))
    (h : (run events).graph? i = some g) : P g := by
  induction events using List.reverseRecOn generalizing g with
  | nil => cases h
  | append_singleton events e ih =>
    have hprefix : events <+: events ++ [e] := List.prefix_append _ _
    -- the additions before the last event are additions of the whole run
    have ih' : ∀ g, (run events).graph? i = some g → P g := fun g hg =>
      ih (fun past name v r hpast => add past name v r (hpast.trans hprefix)) hg
    rw [run_concat] at h
    rcases graph?_after h with ⟨_, t, -, -, hg⟩ | hold | ⟨name, v, r, rfl, hr, ht, hg⟩
    · rw [hg]
      exact new t
    · exact ih' g hold
    · rw [hg]
      exact add events name v r (List.prefix_refl _) hr ht (ih' r.classes (graph?_of_realm hr))

/-- Every graph that is ever reached begins with the built-in classes. -/
theorem hasBuiltIns_run (h : (run events).graph? i = some g) : g.HasBuiltIns :=
  graph?_run_induction ClassGraph.hasBuiltIns_builtIn
    (fun _ _ _ _ _ _ _ hb => ClassGraph.HasBuiltIns.addStandard hb) h

/-- The graph of a realm of the run begins with the built-in classes. -/
theorem hasBuiltIns_classes (h : (run events).realms[i]? = some r) : r.classes.HasBuiltIns :=
  hasBuiltIns_run (graph?_of_realm h)

/-- Every class that the realm is ever given as a superclass is one of its graph at that time. -/
def OwnSuperclasses (events : List Event) (i : Nat) : Prop :=
  ∀ past name c, past ++ [.perform i (.makeClass name (.classObject c))] <+: events →
    ∀ g, (run past).graph? i = some g → g.contains c = true

/-- No class is made where nothing happens. -/
@[simp] theorem ownSuperclasses_nil (i : Nat) : OwnSuperclasses [] i := by
  intro past name c hpast
  simp at hpast

/-- One more event asks for a handle of the graph if it makes a class under a class, and for nothing
    otherwise. -/
theorem ownSuperclasses_concat :
    OwnSuperclasses (events ++ [e]) i ↔
      OwnSuperclasses events i ∧
        ∀ name c, e = .perform i (.makeClass name (.classObject c)) →
          ∀ g, (run events).graph? i = some g → g.contains c = true := by
  constructor
  · intro h
    refine ⟨fun past name c hpast => h past name c (hpast.trans (List.prefix_append _ _)), ?_⟩
    rintro name c rfl
    exact h events name c (List.prefix_refl _)
  · rintro ⟨hown, hlast⟩ past name c hpast
    rcases List.prefix_concat_iff.mp hpast with heq | hpast
    · obtain ⟨rfl, he⟩ := List.append_inj' heq rfl
      exact hlast name c (List.singleton_inj.mp he).symm
    · exact hown past name c hpast

/-- A new realm is given no superclass. -/
theorem ownSuperclasses_newRealm (config : Config) (i : Nat) :
    OwnSuperclasses [.newRealm config] i := by
  rw [← List.nil_append [Event.newRealm config], ownSuperclasses_concat]
  exact ⟨ownSuperclasses_nil i, by rintro _ _ ⟨⟩⟩

/-- What passes for a superclass in such a run is recorded by a handle of the graph. -/
theorem OwnSuperclasses.contains_superclassHandle (h : OwnSuperclasses events i)
    {past : List Event} (hpast : past ++ [.perform i (.makeClass name v)] <+: events)
    (hg : (run past).graph? i = some g) : g.contains v.superclassHandle = true := by
  cases v with
  | classObject c => exact h past name c hpast g hg
  | _ => exact (hasBuiltIns_run hg).contains_id .object

/-- **Order along a run.** The graph of such a realm is ordered. -/
theorem ordered_run (hown : OwnSuperclasses events i) (h : (run events).graph? i = some g) :
    g.Ordered :=
  graph?_run_induction ClassGraph.ordered_builtIn
    (fun _ _ _ _ hpast hr _ ho =>
      ho.addStandard (hown.contains_superclassHandle hpast (graph?_of_realm hr))) h

end LispObjects.World
