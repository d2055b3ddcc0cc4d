import LispObjects.Proofs.World.Realms

namespace LispObjects

/-!
# The class records of a realm

What is known of the records of a realm's classes after any run, whatever was asked of the realm and of
the others.

* `Realm.RecordsClasses` — the records begin with the table of the built-in classes; the others are
  standard classes named by symbols of the realm, and every class has a representation of its own;
* `World.MintsClasses` — one successful call makes one record, and nothing else makes any;
* `World.classRecords_run` — all this holds in every realm that is ever reached, and its records are
  those that it had at any time before, followed by the newer ones.
-/

/-! ### The records of one realm -/

/-- The records of a realm's classes, and the classes of the classes. -/
structure Realm.RecordsClasses (r : Realm) : Prop where
  /-- The records begin with the table's rows, in order; a row holds its own representation. -/
  builtIn : ∀ (n : Nat) c, BuiltinClass.all[n]? = some c →
    ∃ record : ClassRecord, r.classes.records[n]? = some record ∧ record.IsRowOf c
  /-- The name of a class is a variable symbol, and the one that the realm's own table has for it. -/
  name : ∀ (n : Nat) (record : ClassRecord), r.classes.records[n]? = some record →
    record.name.space = .vars ∧ record.name.table = r.symbols.id ∧
      r.symbols.find? record.name.name .vars = some record.name
  made : ∀ (n : Nat) (record : ClassRecord), BuiltinClass.all.length ≤ n → r.classes.records[n]? = some record →
    record.metaclass = .standard ∧ ∃ token, record.representation = .token token
  representation_inj : ∀ (n m : Nat) (record record' : ClassRecord), r.classes.records[n]? = some record →
    r.classes.records[m]? = some record' → record.representation = record'.representation → n = m
  /-- The tower of classes of classes ends at the second step, whatever handle it begins with. -/
  classOf : ∀ c, r.classOf (.classObject c) = BuiltinClass.builtInClass ∨
    r.classOf (.classObject c) = BuiltinClass.standardClass
  classOf_classOf : ∀ c,
    r.classOf (.classObject (r.classOf (.classObject c))) = BuiltinClass.builtInClass

variable {r : Realm} {v : Value} {name : Symbol}

/-- The class of a built-in class is the one that the table gives it. -/
theorem Realm.classOf_builtIn (hb : r.classes.HasBuiltIns) (c : BuiltinClass) :
    r.classOf (.classObject c.id) = c.metaclass.asClass.id := by
  obtain ⟨record, hrecord, hrow⟩ := hb.get?_id c
  show (r.record c.id).metaclass.asClass.id = c.metaclass.asClass.id
  rw [Realm.record, hrecord, Option.getD_some, hrow.metaclass]

/-- A class is an instance of one of two metaclasses. -/
theorem Realm.classOf_classObject (r : Realm) (c : ClassId) :
    r.classOf (.classObject c) = BuiltinClass.builtInClass ∨
      r.classOf (.classObject c) = BuiltinClass.standardClass := by
  show (r.record c).metaclass.asClass.id = _ ∨ (r.record c).metaclass.asClass.id = _
  cases (r.record c).metaclass with
  | builtIn => exact .inl rfl
  | standard => exact .inr rfl

/-- In a well-formed realm all of it holds. -/
theorem Realm.WellFormed.recordsClasses (hr : r.WellFormed) : r.RecordsClasses where
  builtIn n c hc := by
    obtain ⟨hlt, -⟩ := List.getElem?_eq_some_iff.mp hc
    obtain ⟨d, hd⟩ := BuiltinClass.exists_eq_id_of_lt (h := ⟨n⟩) hlt
    have hn : n = d.id.index := congrArg ClassId.index hd
    rw [hn, BuiltinClass.all_getElem?_id, Option.some.injEq] at hc
    rw [hn, ← hc]
    exact hr.builtIns d
  name n record hrecord := by
    have hfound := hr.recordName record (Array.mem_of_getElem? hrecord)
    have hmem := SymbolTable.mem_of_find? hfound
    exact ⟨(SymbolTable.eq_of_find? hfound).1, hr.symbols.table_eq hmem, hfound⟩
  made n record hn hrecord := by
    obtain ⟨m, rfl⟩ := Nat.exists_eq_add_of_le hn
    obtain ⟨hmetaclass, htoken⟩ := hr.made m record hrecord
    exact ⟨hmetaclass, m, htoken⟩
  representation_inj n m record record' h h' hsame := hr.representation_inj h h' hsame
  classOf := r.classOf_classObject
  classOf_classOf c := by
    -- both metaclasses are built-in classes of the first metaclass
    rcases r.classOf_classObject c with h | h <;> rw [h, Realm.classOf_builtIn hr.builtIns] <;> rfl

namespace World

variable {w : World} {events past : List Event} {i : Nat} {op : Operation} {g : ClassGraph}
  {answer : Answer} {condition : Condition} {c d : ClassId}

/-! ### What an operation does to the records -/

/-- What the operation does to the class graph of the realm that performs it. -/
structure MintsClasses (w : World) (i : Nat) (op : Operation) : Prop where
  /-- A class that is made takes a new handle and a new token, and is added to the records. -/
  made : ∀ name v answer g, op = .makeClass name v → w.graph? i = some g →
    (w.perform i op).1 = some (.ok answer) →
      ∃ c record, answer = .value (.classObject c) ∧ g.contains c = false ∧
        record.name.name = name.name ∧ record.representation = .token g.nextToken ∧
        (w.after (.perform i op)).graph? i = some ⟨g.records.push record, g.nextToken + 1⟩ ∧
        c.index = g.records.size
  /-- A failed call adds no record and takes no token. -/
  failed : ∀ condition, (w.perform i op).1 = some (.error condition) →
    (w.after (.perform i op)).graph? i = w.graph? i
  /-- Nor does any other operation. -/
  others : (∀ name v, op ≠ .makeClass name v) → (w.after (.perform i op)).graph? i = w.graph? i

/-- No other operation changes the graph. -/
theorem graph?_perform_of_ne_makeClass (h : ∀ name v, op ≠ .makeClass name v) (w : World) (i : Nat) :
    (w.after (.perform i op)).graph? i = w.graph? i := by
  cases hr : w.realms[i]? with
  | none => rw [perform_of_none hr]
  | some r => rw [graph?_perform_self hr, classes_perform h, graph?_of_realm hr]

/-- What does not pass for a class is refused in a world too. -/
theorem answer_makeClass_of_not_hasType (hr : w.realms[i]? = some r)
    (htype : r.hasType v (.builtIn .classObject) = false) (name : Symbol) :
    ∃ condition, (w.perform i (.makeClass name v)).1 = some (.error condition) := by
  have hrefused : Image.RefusesClass ⟨w.heap, r⟩ name v := Image.refusesClass_of_not_hasType htype
  obtain ⟨condition, after, hfail, -⟩ := hrefused
  exact ⟨condition, by rw [perform_of_realm hr, hfail]⟩

/-- **Minting.** In any world, one successful call makes one class, and nothing else makes any. -/
theorem mintsClasses (w : World) (i : Nat) (op : Operation) : w.MintsClasses i op where
  made name v answer g hop hg hanswer := by
    subst hop
    obtain ⟨r, hr, rfl⟩ := graph?_eq_some_iff.mp hg
    cases htype : r.hasType v (.builtIn .classObject) with
    -- what passes for a class makes one, what does not is refused
    | true =>
      rw [answer_makeClass_of_hasType hr htype, Option.some.injEq, Except.ok.injEq] at hanswer
      refine ⟨r.classes.next, _, hanswer.symm, ClassGraph.not_contains_next _, ?_, ?_,
        graph?_makeClass_of_hasType hr htype, rfl⟩
      · exact r.symbols.name_intern name.name .vars
      · rfl
    | false =>
      obtain ⟨condition, hfail⟩ := answer_makeClass_of_not_hasType hr htype name
      rw [hanswer] at hfail
      cases hfail
  failed condition hanswer := by
    by_cases hmake : ∃ name v, op = .makeClass name v
    · obtain ⟨name, v, rfl⟩ := hmake
      cases hr : w.realms[i]? with
      | none => rw [perform_of_none hr]
      | some r =>
        cases htype : r.hasType v (.builtIn .classObject) with
        | true =>
          rw [answer_makeClass_of_hasType hr htype] at hanswer
          cases hanswer
        | false => rw [graph?_makeClass_of_not_hasType hr htype, graph?_of_realm hr]
    · exact graph?_perform_of_ne_makeClass (fun name v hop => hmake ⟨name, v, hop⟩) w i
  others h := graph?_perform_of_ne_makeClass h w i

/-! ### Records along a run -/

/-- What a run has done to the class records of a realm that is now `r`. -/
structure ClassHistory (events : List Event) (i : Nat) (r : Realm) : Prop where
  records : r.RecordsClasses
  /-- The records of any time before are the first of those there are now. -/
  appended : ∀ past before, past <+: events → (run past).realms[i]? = some before →
    before.classes.records.toList <+: r.classes.records.toList
  /-- Every operation on the way, and whichever comes next, made one class or none. -/
  minted : ∀ past op, past <+: events → (run past).MintsClasses i op
  /-- A handle is given out once. -/
  handles : ∀ past past' name name' v v' c d,
    past ++ [.perform i (.makeClass name v)] <+: past' → past' <+: events →
    ((run past).perform i (.makeClass name v)).1 = some (.ok (.value (.classObject c))) →
    ((run past').perform i (.makeClass name' v')).1 = some (.ok (.value (.classObject d))) → c ≠ d

/-- A class that was made is in the graph ever after. -/
theorem contains_of_made {past' : List Event}
    (hpast : past ++ [.perform i (.makeClass name v)] <+: past')
    (h : ((run past).perform i (.makeClass name v)).1 = some (.ok (.value (.classObject c))))
    (hg : (run past').graph? i = some g) : g.contains c = true := by
  obtain ⟨before, hr⟩ := exists_realm_of_answer h
  obtain ⟨c', record, hc', -, -, -, hafter, hindex⟩ :=
    (mintsClasses (run past) i _).made name v _ _ rfl (graph?_of_realm hr) h
  cases hc'
  rw [← run_concat] at hafter
  obtain ⟨middle, hmiddle, hclasses⟩ := graph?_eq_some_iff.mp hafter
  obtain ⟨r, hr', rfl⟩ := graph?_eq_some_iff.mp hg
  -- its record is there, and no record is ever taken away
  have hlength := (extends_of_past hpast hmiddle hr').records.length_le
  rw [hclasses, Array.length_toList, Array.size_push, Array.length_toList] at hlength
  rw [ClassGraph.contains_iff, hindex]
  exact hlength

/-- **Class records along a run.** They are only ever added to, by the calls that make classes and by
    nothing else, and what they say of a class is so for ever. -/
theorem classRecords_run (hr : (run events).realms[i]? = some r) : ClassHistory events i r where
  records := (wellFormed_run hr).recordsClasses
  appended past before hpast hbefore := (extends_of_past hpast hbefore hr).records
  minted past op _ := mintsClasses (run past) i op
  handles past past' name name' v v' c d hpast hpast' hc hd := by
    rintro rfl
    -- the second call answers with a handle that was not in the graph, where the first one's was
    obtain ⟨middle, hr'⟩ := exists_realm_of_answer hd
    have hin := contains_of_made hpast hc (graph?_of_realm hr')
    obtain ⟨c', -, hc', hout, -⟩ :=
      (mintsClasses (run past') i _).made name' v' _ _ rfl (graph?_of_realm hr') hd
    cases hc'
    rw [hin] at hout
    cases hout

/-- A realm that makes a class under `standard-object`, and then another one of the same name. -/
def redefinedClass : List Event :=
  [.newRealm {},
    .perform 0 (.makeClass ⟨0, 0, "message", .vars⟩ (.classObject BuiltinClass.standardObject.id)),
    .perform 0 (.makeClass ⟨0, 0, "message", .vars⟩ (.classObject BuiltinClass.standardObject.id))]

/-- The records of a realm in which two classes have one name. -/
theorem classRecords_of_redefinedClass :
    ∃ r, (run redefinedClass).realms[0]? = some r ∧ ClassHistory redefinedClass 0 r := by
  obtain ⟨g, hg, -⟩ := graph?_run_newRealm {}
  obtain ⟨before, hbefore, -⟩ := graph?_eq_some_iff.mp hg
  have hpast : [.newRealm {}] <+: redefinedClass := List.prefix_append [_] _
  obtain ⟨r, hr, -⟩ := exists_extends_of_past hpast hbefore
  exact ⟨r, hr, classRecords_run hr⟩

end World

end LispObjects
