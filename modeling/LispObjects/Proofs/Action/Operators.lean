import LispObjects.Proofs.Action.Outcome

namespace LispObjects

/-!
# Chains of functions

A function wraps an operator, which can be a function again.  To apply a function is to go down this
chain to its end, and to call the body that is found there.

* `Value.wrappers` — how many functions the chain has;
* `Action.unwrapTimes` — the chain, taken apart one function at a time: it ends in the innermost
  operator;
* `Action.applyWithin` — the way down as a loop with a bound on its rounds, which the application is
  (`Action.applyWithin_eq`);
* `Action.applyWith_of_unwrapTimes`, `Action.applyWith_eq_fail_iff` — whatever the bodies mean, one call of
  the body at the end is all that happens, or nothing is called.
-/

variable {v u operator args : Value} {n rounds identity : Nat} {name : Symbol} {body : Primitive}
  {run : Primitive → Value → Action Value} {image : Image}

namespace Value

/-- How many functions there are around the innermost operator. -/
def wrappers : Value → Nat
  | function _ operator => operator.wrappers + 1
  | _ => 0

end Value

namespace Action

/-! ### Taking a chain apart -/

/-- Unwraps a value as many times. -/
def unwrapTimes : Nat → Value → Except Fault Value
  | 0, v => .ok v
  | n + 1, v => do unwrapTimes n (← unwrap v)

/-- As many functions as were taken off are missing, and the end of the chain is the same. -/
theorem innermost_of_unwrapTimes (h : unwrapTimes n v = .ok u) :
    v.innermost = u.innermost ∧ v.wrappers = u.wrappers + n := by
  induction n generalizing v with
  | zero =>
    cases h
    exact ⟨rfl, rfl⟩
  | succ n ih =>
    cases v with
    | function identity operator =>
      obtain ⟨hinnermost, hwrappers⟩ := ih h
      exact ⟨hinnermost, by rw [Value.wrappers, hwrappers, Nat.add_assoc]⟩
    | _ => cases h

/-- **Chains end.** At the end of the chain is the innermost operator. -/
theorem unwrapTimes_wrappers (v : Value) : unwrapTimes v.wrappers v = .ok v.innermost := by
  induction v with
  | function identity operator ih => exact ih
  | _ => rfl

/-- The innermost operator is no function, so it is not unwrapped. -/
theorem unwrapTimes_of_wrappers_lt (h : v.wrappers < n) :
    unwrapTimes n v = .error (.notA .function v.innermost) := by
  induction n generalizing v with
  | zero => omega
  | succ n ih =>
    cases v with
    | function identity operator =>
      have hless : operator.wrappers < n := by
        rw [Value.wrappers] at h
        omega
      exact ih hless
    | _ => rfl

/-! ### The way down as a loop -/

/-- Goes down the chain for at most so many rounds.  A round looks at one operator: it calls a body, goes on
with what a function wraps, and gives up at anything else. -/
def applyWithin (run : Primitive → Value → Action Value) (args : Value) :
    Nat → Value → Option (Action Value)
  | 0, _ => none
  | rounds + 1, .function _ operator => applyWithin run args rounds operator
  | _ + 1, .builtIn _ _ body => some (run body args)
  | _ + 1, _ => some (fail .notABuiltInOperator)

/-- **The loop ends**, after one round more than there are functions, and is the application then. -/
theorem applyWithin_eq (run : Primitive → Value → Action Value) (args : Value) (rounds : Nat)
    (v : Value) :
    applyWithin run args rounds v =
      if v.wrappers < rounds then some (applyWith run v args) else none := by
  induction rounds generalizing v with
  | zero => rfl
  | succ rounds ih =>
    cases v with
    | function identity operator =>
      simp only [applyWithin, ih, Value.wrappers, Nat.add_lt_add_iff_right]
      rfl
    | _ => exact (if_pos (Nat.succ_pos rounds)).symm

/-! ### What is called -/

/-- **One call.** Around a body any number of functions makes no difference. -/
theorem applyWith_of_unwrapTimes (h : unwrapTimes n v = .ok (.builtIn identity name body)) :
    applyWith run v args = run body args := by
  rw [applyWith, (innermost_of_unwrapTimes h).1]
  rfl

/-- An operator without a primitive body is refused. -/
theorem applyWith_of_ne_builtIn (h : ∀ identity name body, v.innermost ≠ .builtIn identity name body) :
    applyWith run v args = fail .notABuiltInOperator := by
  rw [applyWith]
  split
  · next hbody => exact absurd hbody (h _ _ _)
  · rfl

/-- **No call.** An application fails like that, whatever the bodies mean, exactly if there is no body at the
end of the chain. -/
theorem applyWith_eq_fail_iff (image : Image) (v args : Value) :
    (∀ run, applyWith run v args = fail .notABuiltInOperator) ↔
      ∀ identity name body, v.innermost ≠ .builtIn identity name body := by
  refine ⟨fun h identity name body hbody => ?_, fun h run => applyWith_of_ne_builtIn h⟩
  -- a body that succeeds would have been called
  have hcalled : applyWith (fun _ _ => pure .void) v args = pure .void := by
    rw [applyWith, hbody]
  have hfailed := congrArg (runOn · image) (hcalled.symm.trans (h _))
  cases hfailed

/-! ### Wrapping -/

/-- What is an operator is wrapped into a new function, and anything else is refused. -/
theorem runOn_wrap (v : Value) (image : Image) :
    (wrap v).runOn image =
      if image.realm.hasType v (.builtIn .operator) = true then
        (.ok (.function image.heap.nextIdentity v),
          { image with heap := image.heap.freshIdentity.2 })
      else (.error (.notA .operator v), image) := by
  rw [wrap, assertType, runOn_bind, runOn_query, Realm.assertType]
  by_cases htype : image.realm.hasType v (.builtIn .operator) = true
  · rw [if_pos htype, if_pos htype]
    rfl
  · rw [if_neg htype, if_neg htype]
    rfl

end Action

end LispObjects
