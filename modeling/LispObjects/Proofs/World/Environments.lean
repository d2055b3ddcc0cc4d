import LispObjects.Proofs.Action.Binding
import LispObjects.Proofs.Realm.Report
import LispObjects.Proofs.World.Realms

namespace LispObjects

/-!
# Environments along a run

What a lookup gives after any run, in terms of the puts that were made on the way.

* `World.puts`, `World.putLog` — the puts of an event and of a run: what is bound by the run's
  operations, and what realms bind in their root environments themselves;
* `World.Built` — the root environments, and those that were made around one that was there or around
  none; `World.BindsBuilt` — the run binds symbols in no others;
* `World.records_putLog` — the frames hold what was put on them, after every such run;
* `World.environmentLaws_run` — what follows for lookups, in every environment that was made.
-/

/-! ### The environment that is made -/

/-- A new environment lies in the one that it was made in. -/
theorem Heap.parent?_newEnvironment (h : Heap) (parent? : Option Environment) :
    (h.newEnvironment parent?).1.parent? = parent? := by
  cases parent? <;> rfl

/-- Making an environment cannot fail, and leaves the realm. -/
theorem Image.perform_makeEnvironment (image : Image) (parent? : Option Environment) :
    image.perform (.makeEnvironment parent?) =
      (.ok (.value (.environment (image.heap.newEnvironment parent?).1)),
        ⟨(image.heap.newEnvironment parent?).2, image.realm⟩) := rfl

namespace World

variable {w : World} {events past : List Event} {event : Event} {i : Nat} {op : Operation} {r : Realm}
  {d e : Environment} {s : Symbol} {v : Value} {put : Write .frame}

/-! ### Puts of a run -/

/-- The puts of an event. A new realm registers the built-in classes in its root environment. -/
def puts (w : World) : Event → List (Write .frame)
  | .newRealm config =>
    let r := (Realm.boot config w.realms.size w.heap).1
    BuiltinClass.all.map fun c => r.rootPut c.name .classes (.classObject c.id)
  | .perform i op => (w.image? i).elim [] op.puts

/-- All puts of a run, from the oldest to the newest. -/
def putLog (events : List Event) : List (Write .frame) :=
  log puts events

/-- The last event of a run adds its puts at the end. -/
theorem putLog_concat (events : List Event) (event : Event) :
    putLog (events ++ [event]) = putLog events ++ (run events).puts event :=
  log_concat puts events event

/-! ### Environments of a run -/

/-- The event makes the environment: it is the root of a new realm, or the answer to the operation that
    makes one. -/
def Makes (w : World) (event : Event) (e : Environment) : Prop :=
  (∃ config, event = .newRealm config ∧ (Realm.boot config w.realms.size w.heap).1.root = e) ∨
    ∃ i parent?, event = .perform i (.makeEnvironment parent?) ∧
      (w.perform i (.makeEnvironment parent?)).1 = some (.ok (.value (.environment e)))

/-- The environment was made in the run. -/
def Built (events : List Event) (e : Environment) : Prop :=
  MadeIn Makes events e

/-- Nothing is ever bound in an environment that was not made before. -/
def BindsBuilt (events : List Event) : Prop :=
  ∀ past i e s v, past ++ [.perform i (.bind e s v)] <+: events → Built past e

/-- A run that binds symbols in no others has no earlier part that does. -/
theorem BindsBuilt.earlier {events' : List Event} (h : BindsBuilt events')
    (hevents : events <+: events') : BindsBuilt events :=
  fun past i e s v hpast => h past i e s v (hpast.trans hevents)

/-- One more event binds something in an environment that was made, or binds nothing. -/
theorem bindsBuilt_concat :
    BindsBuilt (events ++ [event]) ↔
      BindsBuilt events ∧ ∀ i e s v, event = .perform i (.bind e s v) → Built events e := by
  have hiff : ∀ events, BindsBuilt events ↔ ∀ past event, past ++ [event] <+: events →
      ∀ i e s v, event = .perform i (.bind e s v) → Built past e := by
    intro events
    constructor
    · rintro h past event hpast i e s v rfl
      exact h past i e s v hpast
    · intro h past i e s v hpast
      exact h past _ hpast i e s v rfl
  rw [hiff, hiff]
  exact forall_past_concat

/-- A new realm is asked to bind nothing. -/
theorem bindsBuilt_newRealm (config : Config) : BindsBuilt [.newRealm config] := by
  rw [← List.nil_append [Event.newRealm config], bindsBuilt_concat]
  refine ⟨?_, by rintro i e s v ⟨⟩⟩
  intro past i e s v hpast
  simp at hpast

/-- A run may make environments. -/
theorem BindsBuilt.makeEnvironment (h : BindsBuilt events) (i : Nat) (parent? : Option Environment) :
    BindsBuilt (events ++ [.perform i (.makeEnvironment parent?)]) := by
  refine bindsBuilt_concat.mpr ⟨h, ?_⟩
  rintro _ _ _ _ ⟨⟩

/-- A run may bind symbols in environments that were made. -/
theorem BindsBuilt.bind (h : BindsBuilt events) (he : Built events e) (i : Nat) (s : Symbol)
    (v : Value) : BindsBuilt (events ++ [.perform i (.bind e s v)]) := by
  refine bindsBuilt_concat.mpr ⟨h, ?_⟩
  rintro _ _ _ _ ⟨⟩
  exact he

/-- What is made is a new frame inside frames that are there. -/
theorem Makes.exists_eq (h : w.Makes event e) :
    ∃ parent?, e = (w.heap.newEnvironment parent?).1 := by
  rcases h with ⟨config, -, rfl⟩ | ⟨i, parent?, -, hanswer⟩
  · exact ⟨none, (Realm.registration_boot config w.realms.size w.heap).1⟩
  · obtain ⟨r, hr⟩ := exists_realm_of_answer hanswer
    rw [perform_of_realm hr, Image.perform_makeEnvironment] at hanswer
    cases hanswer
    exact ⟨parent?, rfl⟩

/-- An event makes one environment at most. -/
theorem Makes.unique (h : w.Makes event d) (h' : w.Makes event e) : d = e := by
  rcases h with ⟨config, rfl, rfl⟩ | ⟨i, parent?, rfl, hanswer⟩ <;>
    rcases h' with ⟨config', hevent, hroot⟩ | ⟨i', parent?', hevent, hanswer'⟩
  · cases hevent
    exact hroot
  · cases hevent
  · cases hevent
  · cases hevent
    rw [hanswer] at hanswer'
    cases hanswer'
    rfl

/-! ### Frames after an event -/

/-- The puts of an operation are made in the image of its realm. -/
theorem puts_perform (hr : w.realms[i]? = some r) (op : Operation) :
    w.puts (.perform i op) = op.puts ⟨w.heap, r⟩ := by
  rw [puts, image?, hr]
  rfl

/-- Where there is no realm nothing is put. -/
theorem puts_of_none (hr : w.realms[i]? = none) (op : Operation) :
    w.puts (.perform i op) = [] := by
  rw [puts, image?, hr]
  rfl

/-- Where an environment is made, its frame is added before anything is put. -/
theorem Makes.frames_after (h : w.Makes event e) :
    (w.after event).heap.frames =
      (w.puts event).foldl Store.put (w.heap.frames.alloc .empty).2 := by
  rcases h with ⟨config, rfl, -⟩ | ⟨i, parent?, rfl, hanswer⟩
  · rw [heap_newRealm, puts]
    exact Realm.frames_boot config w.realms.size w.heap
  · obtain ⟨r, hr⟩ := exists_realm_of_answer hanswer
    rw [heap_perform hr, puts_perform hr]
    rfl

/-- Where none is made, the puts are all that happens to the frames. -/
theorem frames_after_of_not_makes (h : ∀ e, ¬ w.Makes event e) :
    (w.after event).heap.frames = (w.puts event).foldl Store.put w.heap.frames := by
  cases event with
  | newRealm config => exact absurd (.inl ⟨config, rfl, rfl⟩) (h _)
  | perform i op =>
    cases hr : w.realms[i]? with
    | none => rw [perform_of_none hr, puts_of_none hr]; rfl
    | some r =>
      rw [heap_perform hr, puts_perform hr]
      -- an operation that makes an environment would answer with it
      refine Image.frames_perform ?_ _
      rintro parent? rfl
      have hanswer : (w.perform i (.makeEnvironment parent?)).1 =
          some (.ok (.value (.environment (w.heap.newEnvironment parent?).1))) := by
        rw [perform_of_realm hr, Image.perform_makeEnvironment]
      exact h _ (.inr ⟨i, parent?, rfl, hanswer⟩)

/-! ### Frames along a run -/

/-- Frames are never taken away. -/
theorem contains_frames_after {f : Ref .frame} (h : w.heap.frames.Contains f) (event : Event) :
    (w.after event).heap.frames.Contains f := by
  by_cases hmakes : ∃ e, w.Makes event e
  · obtain ⟨e, he⟩ := hmakes
    rw [he.frames_after, Store.contains_foldl_put]
    exact (Store.Extends.alloc _ _).contains h
  · rw [frames_after_of_not_makes (not_exists.mp hmakes), Store.contains_foldl_put]
    exact h

/-- A frame that was there is there ever after. -/
theorem contains_frames_of_past {f : Ref .frame} (hpast : past <+: events)
    (h : (run past).heap.frames.Contains f) : (run events).heap.frames.Contains f := by
  obtain ⟨rest, rfl⟩ := hpast
  induction rest using List.reverseRecOn with
  | nil => rwa [List.append_nil]
  | append_singleton rest event ih =>
    rw [← List.append_assoc, run_concat]
    exact contains_frames_after ih event

/-- The frame of an environment that is made was not there before. -/
theorem Makes.not_contains (h : w.Makes event e) : ¬ w.heap.frames.Contains e.frame := by
  obtain ⟨parent?, rfl⟩ := h.exists_eq
  exact w.heap.frames.not_contains_alloc .empty

/-- The frame of an environment is there once it is made. -/
theorem Makes.contains (h : w.Makes event e) : (w.after event).heap.frames.Contains e.frame := by
  rw [h.frames_after, Store.contains_foldl_put]
  obtain ⟨parent?, rfl⟩ := h.exists_eq
  exact w.heap.frames.contains_alloc_self .empty

/-- The frame of an environment that was made is there ever after. -/
theorem Built.contains (h : Built events e) : (run events).heap.frames.Contains e.frame := by
  obtain ⟨past, event, hpast, hmakes⟩ := h
  have hafter := hmakes.contains
  rw [← run_concat] at hafter
  exact contains_frames_of_past hpast hafter

/-- **Identity.** Environments that were made are the same if their own frames are. -/
theorem Built.unique (h : Built events d) (h' : Built events e) (hframe : d.frame = e.frame) :
    d = e := by
  have hevent : ∀ (w : World) event d e, w.Makes event d → w.Makes event e → d = e :=
    fun _ _ _ _ hd he => hd.unique he
  refine h.eq_of_key hevent ?_ h' hframe
  intro past event d e _ hd he hframe
  have hin : (run past).heap.frames.Contains d.frame := Built.contains hd
  rw [hframe] at hin
  exact he.not_contains hin

/-- Every root environment was made. -/
theorem built_root (hr : (run events).realms[i]? = some r) : Built events r.root := by
  induction events using List.reverseRecOn generalizing r with
  | nil => cases hr
  | append_singleton events event ih =>
    have hprefix : events <+: events ++ [event] := List.prefix_append _ _
    rw [run_concat] at hr
    rcases realm_after hr with ⟨config, rfl, -, rfl⟩ | hold | ⟨op, before, -, hbefore, rfl⟩
    · exact ⟨events, _, List.prefix_refl _, .inl ⟨config, rfl, rfl⟩⟩
    · exact (ih hold).later hprefix
    · rw [(Image.extends_perform ⟨(run events).heap, before⟩ op).root]
      exact (ih hbefore).later hprefix

/-- Puts are made on frames that are there, or on the frame of a root that is made by the same event. -/
theorem contains_of_mem_puts (hbinds : BindsBuilt (events ++ [event]))
    (hput : put ∈ (run events).puts event) :
    (run events).heap.frames.Contains put.cell ∨
      ∃ e, (run events).Makes event e ∧ put.cell = e.frame := by
  cases event with
  | newRealm config =>
    obtain ⟨c, -, rfl⟩ := List.mem_map.mp hput
    exact .inr ⟨_, .inl ⟨config, rfl, rfl⟩, rfl⟩
  | perform i op =>
    cases hr : (run events).realms[i]? with
    | none =>
      rw [puts_of_none hr] at hput
      cases hput
    | some r =>
      rw [puts_perform hr] at hput
      -- a binding is in an environment of the run, any other put in the root
      rcases Operation.cell_of_mem_puts hput with ⟨e, s, v, rfl, hcell⟩ | hcell
      · rw [hcell]
        exact .inl ((bindsBuilt_concat.mp hbinds).2 i e s v rfl).contains
      · rw [hcell]
        exact .inl (built_root hr).contains

/-- **Frames.** After every run the frames hold what was put on them. -/
theorem records_putLog (hbinds : BindsBuilt events) :
    (run events).heap.frames.Records (putLog events) := by
  induction events using List.reverseRecOn with
  | nil => exact Store.Records.empty
  | append_singleton events event ih =>
    have hlog := ih (bindsBuilt_concat.mp hbinds).1
    rw [run_concat, putLog_concat]
    -- an environment that the event makes has an empty frame, and may be put on by the same event
    by_cases hmakes : ∃ e, (run events).Makes event e
    · obtain ⟨e, he⟩ := hmakes
      rw [he.frames_after]
      refine hlog.alloc.foldl_put fun put hput => ?_
      rcases contains_of_mem_puts hbinds hput with hcell | ⟨d, hd, hcell⟩
      · exact (Store.Extends.alloc _ _).contains hcell
      · obtain ⟨parent?, rfl⟩ := hd.exists_eq
        rw [hcell]
        exact Store.contains_alloc_self _ _
    · rw [frames_after_of_not_makes (not_exists.mp hmakes)]
      refine hlog.foldl_put fun put hput => ?_
      rcases contains_of_mem_puts hbinds hput with hcell | ⟨d, hd, -⟩
      · exact hcell
      · exact absurd ⟨d, hd⟩ hmakes

/-! ### Lookups -/

/-- A lookup answers with the value. -/
theorem answer_lookup (hr : w.realms[i]? = some r) (h : w.heap.lookup? e s = some v) :
    (w.perform i (.lookup e s)).1 = some (.ok (.value v)) := by
  have hrun : (Operation.lookup e s).action.runOn ⟨w.heap, r⟩ = (.ok (.value v), ⟨w.heap, r⟩) := by
    simp only [Operation.action, Action.lookup, Action.runOn_bind, Action.runOn_query, h,
      Action.runOn_pure]
  rw [perform_of_realm hr, Image.perform_of_ok hrun]

/-- A lookup that finds nothing fails with a condition that carries the symbol and the environment. -/
theorem answer_lookup_error (hr : w.realms[i]? = some r) (hn : r.names.FoundIn r.symbols)
    (h : w.heap.lookup? e s = none) :
    ∃ condition after, w.perform i (.lookup e s) = (some (.error condition), after) ∧
      condition.object.classId = BuiltinClass.unboundSymbolError ∧
      condition.slot? r after.heap "symbol" = some (.symbol s) ∧
      condition.slot? r after.heap "environment" = some (.environment e) := by
  have hrun : (Operation.lookup e s).action.runOn ⟨w.heap, r⟩ =
      (.error (.unboundSymbol s e), ⟨w.heap, r⟩) := by
    simp only [Operation.action, Action.lookup, Action.runOn_bind, Action.runOn_query, h]
  obtain ⟨hsymbol, henvironment⟩ := Realm.slot?_unboundSymbol hn s e w.heap
  rw [perform_of_realm hr, Image.perform_of_error hrun]
  exact ⟨_, _, rfl, rfl, hsymbol, henvironment⟩

/-- **Changes.** If an event changes what a lookup gives, it puts the symbol on a frame of the
    environment, and no nearer frame had the symbol. -/
theorem exists_put_of_lookup?_ne {log : List (Write .frame)} (hlog : w.heap.frames.Records log)
    (hne : (w.after event).heap.lookup? e s ≠ w.heap.lookup? e s) :
    ∃ put ∈ w.puts event, put.key = s ∧ ∃ inner outer, e.frames = inner ++ put.cell :: outer ∧
      ∀ before ∈ log, before.key = s → before.cell ∉ inner := by
  by_cases hmakes : ∃ d, w.Makes event d
  · obtain ⟨d, hd⟩ := hmakes
    -- a frame without bindings gives nothing to look up
    let grown : Heap := { w.heap with frames := (w.heap.frames.alloc .empty).2 }
    have hgrown : grown.frames.Records log := hlog.alloc
    have hsame : grown.lookup? e s = w.heap.lookup? e s :=
      Option.ext fun v =>
        (Heap.lookup?_eq_some_iff hgrown).trans (Heap.lookup?_eq_some_iff hlog).symm
    rw [← hsame] at hne
    exact Heap.exists_put_of_lookup?_ne hgrown hd.frames_after hne
  · exact Heap.exists_put_of_lookup?_ne hlog (frames_after_of_not_makes (not_exists.mp hmakes)) hne

/-- To bind a symbol is one put. -/
theorem puts_bind (hr : w.realms[i]? = some r) (d : Environment) (s : Symbol) (v : Value) :
    w.puts (.perform i (.bind d s v)) = [⟨d.frame, s, v⟩] := by
  rw [puts_perform hr]
  rfl

/-- To bind a symbol is one put, if there is a realm to do it. -/
theorem eq_of_mem_puts_bind (h : put ∈ w.puts (.perform i (.bind d s v))) :
    put = ⟨d.frame, s, v⟩ := by
  cases hr : w.realms[i]? with
  | none =>
    rw [puts_of_none hr] at h
    cases h
  | some r =>
    rw [puts_bind hr] at h
    exact List.mem_singleton.mp h

/-- What lookups give after a run, for an environment that was made in it. -/
structure EnvironmentLaws (events : List Event) (e : Environment) : Prop where
  /-- The parent is the one that the environment was made with. -/
  parent? : ∀ past i parent?, past ++ [.perform i (.makeEnvironment parent?)] <+: events →
    ((run past).perform i (.makeEnvironment parent?)).1 = some (.ok (.value (.environment e))) →
      e.parent? = parent?
  /-- The environment is the only one with its own frame. -/
  unique : ∀ d, Built events d → d.frame = e.frame → d = e
  /-- A lookup gives the newest put on the nearest frame that was ever put the symbol. -/
  lookup?_eq_some_iff : ∀ s v,
    (run events).heap.lookup? e s = some v ↔ NearestPut (putLog events) e s v
  lookup?_eq_none_iff : ∀ s,
    (run events).heap.lookup? e s = none ↔ ∀ put ∈ putLog events, put.key = s → put.cell ∉ e.frames
  isBound_iff : ∀ s,
    (run events).heap.isBound e s = true ↔ ∃ v, (run events).heap.lookup? e s = some v
  /-- In every realm a lookup as an operation has the same outcome. -/
  answer_iff : ∀ i r s v, (run events).realms[i]? = some r →
    (((run events).perform i (.lookup e s)).1 = some (.ok (.value v)) ↔
      (run events).heap.lookup? e s = some v)
  answer_error : ∀ i r s, (run events).realms[i]? = some r →
    (run events).heap.lookup? e s = none →
      ∃ condition after, (run events).perform i (.lookup e s) = (some (.error condition), after) ∧
        condition.object.classId = BuiltinClass.unboundSymbolError ∧
        condition.slot? r after.heap "symbol" = some (.symbol s) ∧
        condition.slot? r after.heap "environment" = some (.environment e)
  /-- The own frame has the environment's own puts only, and counts every symbol once. -/
  localLookup?_eq_some_iff : ∀ s v, (run events).heap.localLookup? e s = some v ↔
    LastWrite (fun put => put.cell = e.frame ∧ put.key = s) (putLog events) v
  localSize_eq : (run events).heap.localSize e =
    (((putLog events).filter (·.cell = e.frame)).map (·.key)).toFinset.card
  /-- What comes next changes a lookup only by a put of the symbol on a frame of the environment, and
      only if no nearer frame has the symbol. -/
  changes : ∀ event s, ((run events).after event).heap.lookup? e s ≠ (run events).heap.lookup? e s →
    ∃ put ∈ (run events).puts event, put.key = s ∧
      ∃ inner outer, e.frames = inner ++ put.cell :: outer ∧
        ∀ before ∈ putLog events, before.key = s → before.cell ∉ inner
  /-- So does binding a symbol in an environment. -/
  bind_changes : ∀ i d s v s',
    ((run events).after (.perform i (.bind d s v))).heap.lookup? e s' ≠
        (run events).heap.lookup? e s' →
      s' = s ∧ ∃ inner outer, e.frames = inner ++ d.frame :: outer ∧
        ∀ before ∈ putLog events, before.key = s → before.cell ∉ inner

/-- **Environments along a run.** After every run that binds symbols in environments that were made,
    in whatever order and by whichever realms, all of it holds of all of them. -/
theorem environmentLaws_run (hbinds : BindsBuilt events) (he : Built events e) :
    EnvironmentLaws events e := by
  have hlog := records_putLog hbinds
  refine
    { parent? := ?_
      unique := fun d hd hframe => hd.unique he hframe
      lookup?_eq_some_iff := fun s v => Heap.lookup?_eq_some_iff hlog
      lookup?_eq_none_iff := fun s => Heap.lookup?_eq_none_iff hlog
      isBound_iff := ?_
      answer_iff := ?_
      answer_error := fun i r s hr => answer_lookup_error hr (wellFormed_run hr).names
      localLookup?_eq_some_iff := fun s v => Heap.localLookup?_eq_some_iff hlog
      localSize_eq := Heap.localSize_eq hlog
      changes := fun event s => exists_put_of_lookup?_ne hlog
      bind_changes := ?_ }
  -- the parent is a part of the environment and not of the heap, so nothing can change it later
  · intro past i parent? _ hanswer
    obtain ⟨r, hr⟩ := exists_realm_of_answer hanswer
    rw [perform_of_realm hr, Image.perform_makeEnvironment] at hanswer
    cases hanswer
    exact Heap.parent?_newEnvironment _ parent?
  · intro s
    rw [Heap.isBound_eq_isSome_lookup?, Option.isSome_iff_exists]
  -- a lookup that finds nothing is answered by a fault, so an answer comes from a value
  · intro i r s v hr
    refine ⟨fun hanswer => ?_, answer_lookup hr⟩
    cases hlookup : (run events).heap.lookup? e s with
    | some v' =>
      rw [answer_lookup hr hlookup] at hanswer
      cases hanswer
      rfl
    | none =>
      obtain ⟨condition, after, hfail, -⟩ :=
        answer_lookup_error hr (wellFormed_run hr).names hlookup
      rw [hfail] at hanswer
      cases hanswer
  -- a lookup that changed saw a put, and a binding makes a single one
  · intro i d s v s' hne
    obtain ⟨put, hput, hkey, hframes⟩ := exists_put_of_lookup?_ne hlog hne
    rw [eq_of_mem_puts_bind hput] at hkey hframes
    obtain rfl : s = s' := hkey
    exact ⟨rfl, hframes⟩

/-- A realm makes an environment around which `root` lies, binds a symbol in `child` and then the same
    symbol in `root`. -/
def shadowing (root child : Environment) : List Event :=
  [.newRealm {}, .perform 0 (.makeEnvironment (some root)),
    .perform 0 (.bind child ⟨0, 0, "message", .vars⟩ .void),
    .perform 0 (.bind root ⟨0, 0, "message", .vars⟩ .nil)]

/-- Of an environment and the root around it, the inner one's binding is found. -/
theorem environmentLaws_of_child :
    ∃ root child, BindsBuilt (shadowing root child) ∧ Built (shadowing root child) child ∧
      EnvironmentLaws (shadowing root child) child ∧ child.parent? = some root ∧
      (run (shadowing root child)).heap.lookup? child ⟨0, 0, "message", .vars⟩ = some .void := by
  obtain ⟨g, hg, -⟩ := graph?_run_newRealm {}
  obtain ⟨r, hr, -⟩ := graph?_eq_some_iff.mp hg
  -- the child is what the operation answers
  obtain ⟨child, hanswer, hparent⟩ : ∃ child,
      ((run [.newRealm {}]).perform 0 (.makeEnvironment (some r.root))).1 =
        some (.ok (.value (.environment child))) ∧ child.parent? = some r.root := by
    rw [perform_of_realm hr, Image.perform_makeEnvironment]
    exact ⟨_, rfl, Heap.parent?_newEnvironment _ _⟩
  have hsplit : shadowing r.root child = [.newRealm {}] ++ [_] ++ [_] ++ [_] := rfl
  have hroot : Built [.newRealm {}] r.root := built_root hr
  have hmakes : (run [.newRealm {}]).Makes (.perform 0 (.makeEnvironment (some r.root))) child :=
    .inr ⟨0, some r.root, rfl, hanswer⟩
  have hchild : Built ([.newRealm {}] ++ [.perform 0 (.makeEnvironment (some r.root))]) child :=
    ⟨_, _, List.prefix_refl _, hmakes⟩
  have hbinds : BindsBuilt (shadowing r.root child) := by
    rw [hsplit]
    have hmade := (bindsBuilt_newRealm {}).makeEnvironment 0 (some r.root)
    exact (hmade.bind hchild 0 _ _).bind (hroot.later (List.prefix_append _ [_, _])) 0 _ _
  have hbuilt : Built (shadowing r.root child) child := hchild.later (List.prefix_append _ [_, _])
  have hlaws := environmentLaws_run hbinds hbuilt
  refine ⟨r.root, child, hbinds, hbuilt, hlaws, hparent, ?_⟩
  -- the newest put of the symbol on the child's frame is the last but one of all
  have hne : r.root.frame ≠ child.frame := by
    intro heq
    have hin := hroot.contains
    rw [heq] at hin
    exact hmakes.not_contains hin
  obtain ⟨r', hr', -⟩ := exists_extends_of_past (List.prefix_append _
    [.perform 0 (.makeEnvironment (some r.root))]) hr
  obtain ⟨r'', hr'', -⟩ := exists_extends_of_past (List.prefix_append _
    [.perform 0 (.bind child ⟨0, 0, "message", .vars⟩ .void)]) hr'
  rw [hlaws.lookup?_eq_some_iff, hsplit, putLog_concat, putLog_concat, puts_bind hr',
    puts_bind hr'']
  refine ⟨[], child.frame, child.outer, rfl, by simp, ?_⟩
  rw [lastWrite_concat_of_neg fun h => hne h.1, lastWrite_concat_of_pos ⟨rfl, rfl⟩]

end World

end LispObjects
