import LispObjects.Proofs.Action.Atomic

namespace LispObjects

/-!
# What actions fail with

A property of the faults that an action can end in, put together from its parts.

* `Fails Q x` — if the result `x` is a fault, it has the property `Q`;
* `Raises P a` — if the action `a` fails, its fault has the property `P`, which may speak of the image
  that `a` begins with.  In a sequence the second part begins with another image, so its first part has
  to leave the image as it is (`Raises.bind_of_keeps`), or the second must not fail
  (`Raises.bind_of_total`), or the property must be one of the fault alone (`Raises.bind`).
-/

variable {α β : Type} {e : Fault}

/-! ### Results -/

/-- A failure of the result has the property. -/
def Fails (Q : Fault → Prop) (x : Except Fault α) : Prop :=
  ∀ e, x = .error e → Q e

namespace Fails

variable {Q Q' : Fault → Prop} {x : Except Fault α} {f : α → Except Fault β}

/-- A value is no fault. -/
theorem pure (y : α) : Fails Q (Pure.pure y : Except Fault α) :=
  fun _ h => nomatch h

/-- A fault that is thrown is the only one. -/
theorem throw (he : Q e) : Fails Q (MonadExcept.throw e : Except Fault α) := by
  intro e' h
  cases h
  exact he

/-- A computation in two parts fails in its first part or in its second. -/
theorem bind (hx : Fails Q x) (hf : ∀ y, Fails Q (f y)) : Fails Q (x >>= f) := by
  intro e h
  cases x with
  | error e' =>
    obtain rfl : e' = e := by cases h; rfl
    exact hx e' rfl
  | ok y => exact hf y e h

/-- Faults that satisfy the one condition satisfy a weaker one. -/
theorem mono (hx : Fails Q x) (hQ : ∀ e, Q e → Q' e) : Fails Q' x :=
  fun e h => hQ e (hx e h)

end Fails

/-! ### Actions -/

namespace Action

variable {P Q : Image → Fault → Prop} {a : Action α} {f : α → Action β}

/-- The faults that the action ends in have the property, in the image that it begins with. -/
def Raises (P : Image → Fault → Prop) (a : Action α) : Prop :=
  ∀ image e after, a.runOn image = (.error e, after) → P image e

namespace Raises

/-- What an action raises has every property that follows from the one it has. -/
theorem mono (ha : Raises P a) (hPQ : ∀ image e, P image e → Q image e) : Raises Q a :=
  fun image e after h => hPQ image e (ha image e after h)

/-- An action that never fails raises nothing. -/
theorem of_total (ha : Total a) : Raises P a :=
  fun image e after h => absurd h (ha.ne_error image e after)

/-- A computation without the image fails in any image as it fails by itself. -/
theorem of_except {x : Except Fault α} (hx : ∀ image, Fails (P image) x) :
    Raises P (ofExcept x : Action α) := by
  intro image e after h
  rw [runOn_ofExcept, Prod.mk.injEq] at h
  exact hx image e h.1

/-- A computation that reads the image fails in each as it fails on what is read. -/
theorem query {q : Realm → Heap → Except Fault α}
    (hq : ∀ image, Fails (P image) (q image.realm image.heap)) : Raises P (Action.query q) := by
  intro image e after h
  rw [runOn_query, Prod.mk.injEq] at h
  exact hq image e h.1

/-- An action that fails at once raises its fault in every image. -/
theorem fail (he : ∀ image, P image e) : Raises P (Action.fail e : Action α) := by
  intro image e' after h
  rw [runOn_fail] at h
  cases h
  exact he image

/-- **Looking first.** The rest begins with the same image. -/
theorem bind_of_keeps (ha : Raises P a) (hlooks : Keeps Eq a) (hf : ∀ x, Raises P (f x)) :
    Raises P (a >>= f) := by
  intro image e after h
  rcases runOn_bind_eq_error_iff.mp h with hfirst | ⟨x, middle, hfirst, hrest⟩
  · exact ha image e after hfirst
  · rw [hlooks.eq_of_runOn hfirst] at hrest
    exact hf x image e after hrest

/-- **Going on without failing.** -/
theorem bind_of_total (ha : Raises P a) (hf : ∀ x, Total (f x)) : Raises P (a >>= f) := by
  intro image e after h
  rcases runOn_bind_eq_error_iff.mp h with hfirst | ⟨x, middle, -, hrest⟩
  · exact ha image e after hfirst
  · exact absurd hrest ((hf x).ne_error middle e after)

/-- To answer does not fail. -/
theorem answer (ha : Raises P a) (g : α → β) : Raises P (a >>= fun x => Pure.pure (g x)) :=
  ha.bind_of_total fun _ => Total.pure _

/-- If the property is one of the fault alone, it does not matter what the first part changes. -/
theorem bind {Q : Fault → Prop} (ha : Raises (fun _ => Q) a) (hf : ∀ x, Raises (fun _ => Q) (f x)) :
    Raises (fun _ => Q) (a >>= f) := by
  intro image e after h
  rcases runOn_bind_eq_error_iff.mp h with hfirst | ⟨x, middle, -, hrest⟩
  · exact ha image e after hfirst
  · exact hf x middle e after hrest

end Raises

end Action

end LispObjects
