import LispObjects.Proofs.Action.RealmStep
import LispObjects.Proofs.World.Run

namespace LispObjects.World

/-!
# Realms along a run

Once a realm is there it stays, and operations add to it.

* `realm_after` — all that an event can make of a realm;
* `realm_run_induction` — what every new realm has and every operation keeps, every realm has that is
  ever reached;
* `wellFormed_run`, `tableId_run` — a realm is well-formed, and its number is that of its table;
* `exists_extends_of_past` — whatever happens to a realm, it has lost nothing.
-/

variable {w : World} {e : Event} {past events : List Event} {i : Nat} {r before : Realm}

/-! ### Events -/

/-- A new realm adds its root environment to the common heap. -/
theorem heap_newRealm (w : World) (config : Config) :
    (w.after (.newRealm config)).heap = (Realm.boot config w.realms.size w.heap).2 := by
  rw [after, addRealm]

/-- An operation leaves the heap that its image has then. -/
theorem heap_perform (hr : w.realms[i]? = some r) (op : Operation) :
    (w.after (.perform i op)).heap = (Image.perform ⟨w.heap, r⟩ op).2.heap := by
  rw [after, perform_of_realm hr]

/-- **All that an event can do to a realm.** It is a new one, it was there before, or it has performed
    an operation. -/
theorem realm_after (h : (w.after e).realms[i]? = some r) :
    (∃ config, e = .newRealm config ∧ i = w.realms.size ∧
        r = (Realm.boot config w.realms.size w.heap).1) ∨
      w.realms[i]? = some r ∨
      ∃ op before, e = .perform i op ∧ w.realms[i]? = some before ∧
        r = (Image.perform ⟨w.heap, before⟩ op).2.realm := by
  -- a realm is new, or is the one that performs the operation, or is left alone
  cases e with
  | newRealm config =>
    rw [realms_newRealm, Array.getElem?_push] at h
    split at h
    · next hi => exact .inl ⟨config, rfl, hi, (Option.some.inj h).symm⟩
    · exact .inr (.inl h)
  | perform j op =>
    cases hj : w.realms[j]? with
    | none =>
      rw [perform_of_none hj] at h
      exact .inr (.inl h)
    | some before =>
      by_cases hji : j = i
      · subst hji
        rw [realm_perform_self hj, Option.some.injEq] at h
        exact .inr (.inr ⟨op, before, rfl, hj, h.symm⟩)
      · rw [realms_perform hj, Array.getElem?_setIfInBounds_ne hji] at h
        exact .inr (.inl h)

/-- An event takes no realm away. -/
theorem exists_extends_after (h : w.realms[i]? = some before) (e : Event) :
    ∃ r, (w.after e).realms[i]? = some r ∧ before.Extends r := by
  cases e with
  | newRealm config =>
    obtain ⟨hlt, -⟩ := Array.getElem?_eq_some_iff.mp h
    have hne : i ≠ w.realms.size := Nat.ne_of_lt hlt
    rw [realms_newRealm, Array.getElem?_push, if_neg hne]
    exact ⟨before, h, .refl before⟩
  | perform j op =>
    cases hj : w.realms[j]? with
    | none =>
      rw [perform_of_none hj]
      exact ⟨before, h, .refl before⟩
    | some own =>
      by_cases hji : j = i
      -- only the realm that performs the operation is changed
      · subst hji
        exact ⟨_, realm_perform_self h op, Image.extends_perform ⟨w.heap, before⟩ op⟩
      · rw [realms_perform hj, Array.getElem?_setIfInBounds_ne hji]
        exact ⟨before, h, .refl before⟩

/-! ### Runs -/

/-- The first realm of a world, as it is made. -/
theorem realm_run_newRealm (config : Config) :
    (run [.newRealm config]).realms[0]? = some (Realm.boot config 0 .empty).1 := by
  have hrun : run [.newRealm config] = empty.after (.newRealm config) := run_concat [] _
  rw [hrun, realms_newRealm]
  exact Array.getElem?_push_size

/-- **Invariants of a realm.** The first argument is the number of the realm. -/
theorem realm_run_induction {P : Nat → Realm → Prop}
    (new : ∀ config i heap, P i (Realm.boot config i heap).1)
    (perform : ∀ i (image : Image) op, P i image.realm → P i (image.perform op).2.realm)
    (h : (run events).realms[i]? = some r) : P i r := by
  induction events using List.reverseRecOn generalizing r with
  | nil => cases h
  | append_singleton events e ih =>
    rw [run_concat] at h
    rcases realm_after h with ⟨config, -, rfl, rfl⟩ | hold | ⟨op, before, -, hbefore, rfl⟩
    · exact new config _ _
    · exact ih hold
    · exact perform i _ op (ih hbefore)

/-- **Well-formed realms.** There are no others. -/
theorem wellFormed_run (h : (run events).realms[i]? = some r) : r.WellFormed :=
  realm_run_induction (P := fun _ r => r.WellFormed) Realm.wellFormed_boot
    (fun _ _ op h => Image.wellFormed_perform h op) h

/-- The symbol table of a realm has the realm's number. -/
theorem tableId_run (h : (run events).realms[i]? = some r) : r.symbols.id = i := by
  refine realm_run_induction (P := fun i r => r.symbols.id = i) ?_ ?_ h
  · intro config i heap
    exact Realm.tableId_boot config i heap
  · intro i image op h
    rw [(image.extends_perform op).tableId, h]

/-- **Growth along a run.** A realm that was reached is there ever after. -/
theorem exists_extends_of_past (hpast : past <+: events)
    (h : (run past).realms[i]? = some before) :
    ∃ r, (run events).realms[i]? = some r ∧ before.Extends r := by
  obtain ⟨rest, rfl⟩ := hpast
  induction rest using List.reverseRecOn with
  | nil =>
    rw [List.append_nil]
    exact ⟨before, h, .refl before⟩
  | append_singleton rest e ih =>
    obtain ⟨middle, hmiddle, hextends⟩ := ih
    obtain ⟨r, hr, hextends'⟩ := exists_extends_after hmiddle e
    rw [← List.append_assoc, run_concat]
    exact ⟨r, hr, hextends.trans hextends'⟩

/-- What it has become is determined. -/
theorem extends_of_past (hpast : past <+: events) (h : (run past).realms[i]? = some before)
    (hr : (run events).realms[i]? = some r) : before.Extends r := by
  obtain ⟨r', hr', hextends⟩ := exists_extends_of_past hpast h
  rw [hr, Option.some.injEq] at hr'
  rw [hr']
  exact hextends

end LispObjects.World
