import LispObjects.Proofs.Heap.Walks
import LispObjects.Proofs.Realm.TypeData
import Mathlib.Data.List.Forall2

namespace LispObjects

/-!
# The grammar of type specifications

Which data describes a type, and what is said of data that does not.

* `Realm.Describes` — the grammar: strings, classes, variable symbols that name a registered class, and
  proper lists of descriptions that are headed by `or`;
* `Realm.StopsAt` — the reading of a union is cut short where the union, or a member of it, ends in
  something that is no list;
* `Realm.specOfData_eq_ok_iff`, `Realm.specOfData_eq_notA_iff`, `Realm.error_of_specOfData` — a finite
  value is read exactly if it describes a type, the end of an improper union is blamed, and all else is
  unknown.
-/

/-! ### Reading one after the other -/

section Traversal

variable {ε α β : Type} {f : α → Except ε β} {xs : List α} {ys : List β} {e : ε}

/-- All are read if each of them is. -/
theorem mapM_eq_ok_iff : xs.mapM f = .ok ys ↔ List.Forall₂ (fun x y => f x = .ok y) xs ys := by
  induction xs generalizing ys with
  | nil => cases ys <;> simp [pure, Except.pure]
  | cons x xs ih =>
    rw [List.mapM_cons]
    cases hx : f x with
    | error e => cases ys <;> simp [bind, Except.bind, hx]
    | ok y =>
      cases hxs : xs.mapM f with
      | error e => cases ys <;> simp [bind, Except.bind, hx, hxs, ← ih]
      | ok ys' => cases ys <;> simp [bind, Except.bind, pure, Except.pure, hx, hxs, ← ih]

/-- The first that cannot be read is what goes wrong. -/
theorem mapM_eq_error_iff :
    xs.mapM f = .error e ↔
      ∃ before x after, xs = before ++ x :: after ∧ (∀ z ∈ before, ∃ y, f z = .ok y) ∧
        f x = .error e := by
  induction xs with
  | nil => simp [pure, Except.pure]
  | cons x xs ih =>
    -- the parting of the whole begins with `x`, or goes on as one of the rest
    have hsplit : (∃ before z after, x :: xs = before ++ z :: after ∧
        (∀ b ∈ before, ∃ y, f b = .ok y) ∧ f z = .error e) ↔
        f x = .error e ∨ (∃ y, f x = .ok y) ∧ xs.mapM f = .error e := by
      rw [ih]
      constructor
      · rintro ⟨before, z, after, heq, hbefore, hz⟩
        cases before with
        | nil =>
          obtain ⟨rfl, rfl⟩ := List.cons.inj heq
          exact .inl hz
        | cons b before =>
          obtain ⟨rfl, rfl⟩ := List.cons.inj heq
          rw [List.forall_mem_cons] at hbefore
          exact .inr ⟨hbefore.1, before, z, after, rfl, hbefore.2, hz⟩
      · rintro (hx | ⟨hx, before, z, after, rfl, hbefore, hz⟩)
        · exact ⟨[], x, xs, rfl, by simp, hx⟩
        · exact ⟨x :: before, z, after, rfl, List.forall_mem_cons.mpr ⟨hx, hbefore⟩, hz⟩
    rw [hsplit, List.mapM_cons]
    cases f x with
    | error e' => simp [bind, Except.bind]
    | ok y => cases xs.mapM f <;> simp [bind, Except.bind, pure, Except.pure]

end Traversal

namespace Realm

variable {r : Realm} {h : Heap} {v : Value} {p : Ref .pair} {s : Symbol} {spec : TypeSpec} {f : Fault}
  {items : List Value} {tail : Value} {depth : Nat}

/-! ### The grammar -/

/-- The value is data for the type specification, in the realm and on the heap. -/
inductive Describes (r : Realm) (h : Heap) : Value → TypeSpec → Prop where
  | null : Describes r h (.string "null") .null
  | tag {name : String} (hname : name ≠ "null") : Describes r h (.string name) (.tag name)
  | metaobject (c : ClassId) : Describes r h (.classObject c) (.ofClass c)
  /-- The name of `object` stands for anything. -/
  | className {s : Symbol} {c : ClassId} (hspace : s.space = .vars)
    (hfind : r.findClass? h s.name = some c) :
    Describes r h (.symbol s) (TypeSpec.ofClass c).general
  | union {p : Ref .pair} {items : List Value} {members : List TypeSpec}
    (hor : h.car p = .symbol r.names.or) (hitems : h.Passes (h.cdr p) items .nil)
    (hmembers : List.Forall₂ (Describes r h) items members) :
    Describes r h (.pair p) (.oneOf members)

/-- The reading of a union comes to a `tail` that is no list: its own end, or that of the first member
that is no description. -/
inductive StopsAt (r : Realm) (h : Heap) : Value → Value → Prop where
  | here {p : Ref .pair} {items : List Value} {tail : Value} (hor : h.car p = .symbol r.names.or)
    (hitems : h.Passes (h.cdr p) items tail) (hpair : ∀ q, tail ≠ .pair q) (hnil : tail ≠ .nil) :
    StopsAt r h (.pair p) tail
  | inside {p : Ref .pair} {before after : List Value} {item tail : Value}
    (hor : h.car p = .symbol r.names.or)
    (hitems : h.Passes (h.cdr p) (before ++ item :: after) .nil)
    (hbefore : ∀ x ∈ before, ∃ spec, r.Describes h x spec) (hitem : StopsAt r h item tail) :
    StopsAt r h (.pair p) tail

/-! ### One level -/

/-- At the depth the value is read as the grammar says. -/
structure ReadsAt (r : Realm) (h : Heap) (depth : Nat) (v : Value) : Prop where
  ok_iff (spec : TypeSpec) : r.specUpTo h depth v = .ok spec ↔ r.Describes h v spec
  notA_iff (tail : Value) : r.specUpTo h depth v = .error (.notA .list tail) ↔ r.StopsAt h v tail
  error (f : Fault) : r.specUpTo h depth v = .error f →
    f = .unknownTypeSpec ∨ ∃ tail, f = .notA .list tail

/-- What is read as a type is described, and the reading does not stop. -/
theorem ReadsAt.of_ok (hread : r.specUpTo h depth v = .ok spec)
    (hdescribes : ∀ spec', r.Describes h v spec' ↔ spec = spec')
    (hstops : ∀ tail, ¬ r.StopsAt h v tail) : r.ReadsAt h depth v where
  ok_iff spec' := by rw [hread, Except.ok.injEq, hdescribes]
  notA_iff tail := by simp [hread, hstops]
  error f hf := by
    rw [hread] at hf
    cases hf

/-- What is unknown is not described, and the reading does not stop. -/
theorem ReadsAt.of_unknown (hread : r.specUpTo h depth v = .error .unknownTypeSpec)
    (hdescribes : ∀ spec, ¬ r.Describes h v spec) (hstops : ∀ tail, ¬ r.StopsAt h v tail) :
    r.ReadsAt h depth v where
  ok_iff spec := by simp [hread, hdescribes]
  notA_iff tail := by simp [hread, hstops, Fault.notA]
  error f hf := by
    rw [hread] at hf
    cases hf
    exact .inl rfl

/-- A string is read as the host's null or as a tag. -/
theorem readsAt_string (name : String) (depth : Nat) : r.ReadsAt h depth (.string name) := by
  have hstops : ∀ tail, ¬ r.StopsAt h (.string name) tail := fun tail hstop => by cases hstop
  -- one text stands for the host's null, all others for tags
  by_cases hname : name = "null"
  · subst hname
    refine .of_ok (by rw [specUpTo, if_pos rfl]) (fun spec => ⟨fun hd => ?_, ?_⟩) hstops
    · cases hd with
      | null => rfl
      | tag hne => exact absurd rfl hne
    · rintro rfl
      exact .null
  · refine .of_ok (by rw [specUpTo, if_neg hname]) (fun spec => ⟨fun hd => ?_, ?_⟩) hstops
    · cases hd with
      | null => exact absurd rfl hname
      | tag => rfl
    · rintro rfl
      exact .tag hname

/-- A class is read as itself. -/
theorem readsAt_classObject (c : ClassId) (depth : Nat) : r.ReadsAt h depth (.classObject c) := by
  refine .of_ok (by rw [specUpTo]) (fun spec => ⟨fun hd => ?_, ?_⟩) fun tail hstop => by cases hstop
  · cases hd
    rfl
  · rintro rfl
    exact .metaobject c

/-- A symbol is read as the class that is registered under its name, if it is a variable and there is
    one. -/
theorem readsAt_symbol (s : Symbol) (depth : Nat) : r.ReadsAt h depth (.symbol s) := by
  have hstops : ∀ tail, ¬ r.StopsAt h (.symbol s) tail := fun tail hstop => by cases hstop
  -- only a variable can name a class, and only one that is registered does
  by_cases hspace : s.space = .vars
  · cases hfind : r.findClass? h s.name with
    | none =>
      refine .of_unknown (by rw [specUpTo, if_pos hspace, hfind]) (fun spec hd => ?_) hstops
      cases hd with
      | className _ hfind' =>
        rw [hfind] at hfind'
        cases hfind'
    | some c =>
      refine .of_ok (specUpTo_symbol hspace hfind depth) (fun spec => ⟨fun hd => ?_, ?_⟩) hstops
      · cases hd with
        | className _ hfind' =>
          rw [hfind, Option.some.injEq] at hfind'
          rw [hfind']
      · rintro rfl
        exact .className hspace hfind
  · refine .of_unknown (by rw [specUpTo, if_neg hspace]) (fun spec hd => ?_) hstops
    cases hd with
    | className hspace' => exact hspace hspace'

/-- Only strings, classes, symbols and pairs describe anything. -/
theorem readsAt_other (hstring : ∀ name, v ≠ .string name) (hclass : ∀ c, v ≠ .classObject c)
    (hsymbol : ∀ s, v ≠ .symbol s) (hpair : ∀ p, v ≠ .pair p) (depth : Nat) :
    r.ReadsAt h depth v := by
  refine .of_unknown ?_ (fun spec hd => ?_) (fun tail hstop => ?_)
  · rw [specUpTo]
    · exact hstring
    · exact hclass
    · exact hsymbol
    · exact fun _ p _ => hpair p
  · cases hd with
    | null => exact hstring _ rfl
    | tag => exact hstring _ rfl
    | metaobject => exact hclass _ rfl
    | className => exact hsymbol _ rfl
    | union => exact hpair _ rfl
  · cases hstop with
    | here => exact hpair _ rfl
    | inside => exact hpair _ rfl

/-- A list with another head describes nothing. -/
theorem readsAt_of_car_ne (hor : h.car p ≠ .symbol r.names.or) (depth : Nat) :
    r.ReadsAt h (depth + 1) (.pair p) := by
  refine .of_unknown (by rw [specUpTo, if_neg hor]) (fun spec hd => ?_) (fun tail hstop => ?_)
  · cases hd with
    | union hor' => exact hor hor'
  · cases hstop with
    | here hor' => exact hor hor'
    | inside hor' => exact hor hor'

/-- An improper union is blamed for what it ends in. -/
theorem readsAt_improper (hor : h.car p = .symbol r.names.or) (hends : h.ChainEnds (h.cdr p))
    (helements : h.elements (h.cdr p) = .error f) (depth : Nat) :
    r.ReadsAt h (depth + 1) (.pair p) := by
  obtain ⟨items, tail, hpass, hpair, hnil, rfl⟩ := (Heap.elements_eq_error_iff hends).mp helements
  have hread : r.specUpTo h (depth + 1) (.pair p) = .error (.notA .list tail) := by
    rw [specUpTo, if_pos hor, helements]
    rfl
  -- a walk has one end, so no other reading of the rest finds a proper list
  have himproper : ∀ items', ¬ h.Passes (h.cdr p) items' .nil := fun items' hpass' =>
    hnil (hpass.unique hpass' hpair (by simp)).2
  refine ⟨fun spec => ?_, fun tail' => ?_, fun f hf => ?_⟩
  · rw [hread]
    constructor
    · intro heq
      cases heq
    · intro hd
      cases hd with
      | union _ hitems => exact absurd hitems (himproper _)
  · rw [hread]
    constructor
    · intro heq
      cases heq
      exact .here hor hpass hpair hnil
    · intro hstop
      cases hstop with
      | here _ hpass' hpair' => rw [(hpass.unique hpass' hpair hpair').2]
      | inside _ hitems => exact absurd hitems (himproper _)
  · rw [hread] at hf
    cases hf
    exact .inr ⟨tail, rfl⟩

/-- A proper union is described if its items are. -/
theorem describes_union_iff (hor : h.car p = .symbol r.names.or)
    (hpass : h.Passes (h.cdr p) items .nil) :
    r.Describes h (.pair p) spec ↔
      ∃ members, List.Forall₂ (r.Describes h) items members ∧ .oneOf members = spec := by
  constructor
  · intro hd
    cases hd with
    | union _ hitems hmembers =>
      obtain ⟨rfl, -⟩ := hpass.unique hitems (by simp) (by simp)
      exact ⟨_, hmembers, rfl⟩
  · rintro ⟨members, hmembers, rfl⟩
    exact .union hor hpass hmembers

/-- The reading of a proper union stops inside its first item that is no description, if at all. -/
theorem stopsAt_union_iff (hor : h.car p = .symbol r.names.or)
    (hpass : h.Passes (h.cdr p) items .nil) :
    r.StopsAt h (.pair p) tail ↔
      ∃ before item after, items = before ++ item :: after ∧
        (∀ x ∈ before, ∃ spec, r.Describes h x spec) ∧ r.StopsAt h item tail := by
  constructor
  · intro hstop
    cases hstop with
    | here _ hitems hpair hnil => exact absurd (hpass.unique hitems (by simp) hpair).2.symm hnil
    | inside _ hitems hbefore hitem =>
      obtain ⟨rfl, -⟩ := hpass.unique hitems (by simp) (by simp)
      exact ⟨_, _, _, rfl, hbefore, hitem⟩
  · rintro ⟨before, item, after, rfl, hbefore, hitem⟩
    exact .inside hor hpass hbefore hitem

/-- A proper union is read as the grammar says if its items are. -/
theorem readsAt_proper (hor : h.car p = .symbol r.names.or)
    (helements : h.elements (h.cdr p) = .ok items) (hpass : h.Passes (h.cdr p) items .nil)
    (hitems : ∀ item ∈ items, r.ReadsAt h depth item) : r.ReadsAt h (depth + 1) (.pair p) := by
  -- the reading of the union comes down to the readings of its members
  have hread : r.specUpTo h (depth + 1) (.pair p) =
      (items.mapM (r.specUpTo h depth)).map .oneOf := by
    rw [specUpTo, if_pos hor, helements]
    show (do let specs ← items.mapM (r.specUpTo h depth); pure (TypeSpec.oneOf specs)) = _
    cases items.mapM (r.specUpTo h depth) <;> rfl
  have hmembers : ∀ members, items.mapM (r.specUpTo h depth) = .ok members ↔
      List.Forall₂ (r.Describes h) items members := by
    intro members
    rw [mapM_eq_ok_iff]
    constructor
    · exact fun hm => ((List.forall₂_and_left _ _).mpr ⟨hitems, hm⟩).imp
        fun _ _ hx => (hx.1.ok_iff _).mp hx.2
    · exact fun hm => ((List.forall₂_and_left _ _).mpr ⟨hitems, hm⟩).imp
        fun _ _ hx => (hx.1.ok_iff _).mpr hx.2
  refine ⟨fun spec => ?_, fun tail => ?_, fun f hf => ?_⟩
  · rw [hread, describes_union_iff hor hpass]
    simp only [← hmembers]
    cases items.mapM (r.specUpTo h depth) <;> simp [Except.map]
  -- one that stops has members before it that are read, which is where the two relations meet
  · rw [hread, stopsAt_union_iff hor hpass]
    have hmap : (items.mapM (r.specUpTo h depth)).map TypeSpec.oneOf = .error (.notA .list tail) ↔
        items.mapM (r.specUpTo h depth) = .error (.notA .list tail) := by
      cases items.mapM (r.specUpTo h depth) <;> simp [Except.map]
    rw [hmap, mapM_eq_error_iff]
    constructor
    · rintro ⟨before, item, after, rfl, hbefore, hitem⟩
      refine ⟨before, item, after, rfl, fun x hx => ?_,
        ((hitems item (by simp)).notA_iff tail).mp hitem⟩
      obtain ⟨spec, hspec⟩ := hbefore x hx
      exact ⟨spec, ((hitems x (by simp [hx])).ok_iff spec).mp hspec⟩
    · rintro ⟨before, item, after, rfl, hbefore, hitem⟩
      refine ⟨before, item, after, rfl, fun x hx => ?_,
        ((hitems item (by simp)).notA_iff tail).mpr hitem⟩
      obtain ⟨spec, hspec⟩ := hbefore x hx
      exact ⟨spec, ((hitems x (by simp [hx])).ok_iff spec).mpr hspec⟩
  · have hmap : items.mapM (r.specUpTo h depth) = .error f := by
      rw [hread] at hf
      cases hspecs : items.mapM (r.specUpTo h depth) with
      | error f' =>
        rw [hspecs] at hf
        cases hf
        rfl
      | ok specs =>
        rw [hspecs] at hf
        cases hf
    obtain ⟨before, item, after, rfl, -, hitem⟩ := mapM_eq_error_iff.mp hmap
    exact (hitems item (by simp)).error f hitem

/-- A union is read as the grammar says if the items that it passes are. -/
theorem readsAt_union (hor : h.car p = .symbol r.names.or) (hends : h.ChainEnds (h.cdr p))
    (hitems : ∀ items tail, h.Passes (h.cdr p) items tail → ∀ item ∈ items, r.ReadsAt h depth item) :
    r.ReadsAt h (depth + 1) (.pair p) := by
  cases helements : h.elements (h.cdr p) with
  | error f => exact readsAt_improper hor hends helements depth
  | ok items =>
    have hpass := (Heap.elements_eq_ok_iff hends).mp helements
    exact readsAt_proper hor helements hpass (hitems items .nil hpass)

/-! ### All levels -/

/-- A depth that leaves room for every pair but those that the value does not hold reads it as the
    grammar says. -/
theorem readsAt_of_avoids (hv : h.IsFinite v) {passed : Finset Nat}
    (hpassed : passed ⊆ Finset.range h.pairs.size)
    (havoids : ∀ q, h.Within (.pair q) v → q.index ∉ passed)
    (hdepth : h.pairs.size < depth + passed.card) : r.ReadsAt h depth v := by
  have hcard := Finset.card_le_card hpassed
  rw [Finset.card_range] at hcard
  -- the induction is on what holds the members of a union at some depth, which is never one of them
  have hacc : Acc (Relation.TransGen h.Half) v := hv.transGen
  induction hacc generalizing passed depth with
  | intro v _ ih =>
    cases v with
    | string name => exact readsAt_string name depth
    | classObject c => exact readsAt_classObject c depth
    | symbol s => exact readsAt_symbol s depth
    | pair p =>
      obtain ⟨depth, rfl⟩ : ∃ n, depth = n + 1 := ⟨depth - 1, by omega⟩
      by_cases hor : h.car p = .symbol r.names.or
      · have hp : h.pairs.Contains p := by
          by_contra hnot
          rw [(Heap.halves_of_not_contains hnot).1] at hor
          cases hor
        have hsub : insert p.index passed ⊆ Finset.range h.pairs.size :=
          Finset.insert_subset (Finset.mem_range.mpr hp) hpassed
        have hle := Finset.card_le_card hsub
        have hnew : p.index ∉ passed := havoids p .refl
        rw [Finset.card_range] at hle
        have hcdr : h.IsFinite (h.cdr p) := (Heap.isFinite_pair_iff.mp hv).2
        refine readsAt_union hor hcdr.chainEnds fun items tail hpass item hitem => ?_
        have hbelow : Relation.TransGen h.Half item (.pair p) :=
          .tail' (hpass.within hitem) (.cdr p)
        refine ih item hbelow (hv.of_within hbelow.to_reflTransGen) hsub ?_ ?_ hle
        · exact Heap.notMem_insert_of_below hv havoids hbelow
        · rw [Finset.card_insert_of_notMem hnew]
          omega
      · exact readsAt_of_car_ne hor depth
    | _ => exact readsAt_other (by simp) (by simp) (by simp) (by simp) depth

/-- **Reading** goes by the grammar. -/
theorem readsAt_of_isFinite (r : Realm) (hv : h.IsFinite v) : r.ReadsAt h (h.pairs.size + 1) v := by
  refine readsAt_of_avoids hv (Finset.empty_subset _) (fun _ _ => Finset.notMem_empty _) ?_
  rw [Finset.card_empty]
  omega

/-- **Descriptions** are what is read as a type. -/
theorem specOfData_eq_ok_iff (hv : h.IsFinite v) :
    r.specOfData h v = .ok spec ↔ r.Describes h v spec :=
  (r.readsAt_of_isFinite hv).ok_iff spec

/-- **Improper unions** are blamed for what they end in. -/
theorem specOfData_eq_notA_iff (hv : h.IsFinite v) :
    r.specOfData h v = .error (.notA .list tail) ↔ r.StopsAt h v tail :=
  (r.readsAt_of_isFinite hv).notA_iff tail

/-- There is no third kind of refusal. -/
theorem error_of_specOfData (hv : h.IsFinite v) (hread : r.specOfData h v = .error f) :
    f = .unknownTypeSpec ∨ ∃ tail, f = .notA .list tail :=
  (r.readsAt_of_isFinite hv).error f hread

/-- **Everything else** is unknown. -/
theorem specOfData_eq_unknown_iff (hv : h.IsFinite v) :
    r.specOfData h v = .error .unknownTypeSpec ↔
      (∀ spec, ¬ r.Describes h v spec) ∧ ∀ tail, ¬ r.StopsAt h v tail := by
  simp only [← specOfData_eq_ok_iff hv, ← specOfData_eq_notA_iff hv]
  cases hread : r.specOfData h v with
  | ok spec => simp
  | error f =>
    obtain rfl | ⟨tail, rfl⟩ := error_of_specOfData hv hread
    · simp [Fault.notA]
    · simp [Fault.notA]

end Realm

end LispObjects
