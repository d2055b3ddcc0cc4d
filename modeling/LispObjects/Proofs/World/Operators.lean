import LispObjects.Proofs.Action.Operators
import LispObjects.Proofs.World.Realms

namespace LispObjects.World

/-!
# Operators in a run

Operators are wrapped, unwrapped and applied in a world that any run has led to.

* `wrapTimes` — an operator is wrapped again and again;
* `exists_wrapTimes` — this is never refused, and to unwrap as often gives the operator back;
* `operatorLaws_run` — what is wrapped and unwrapped, where the chain of a function ends, which body an
  application calls, and when it calls none.
-/

variable {w : World} {events past : List Event} {i n : Nat} {r : Realm} {f v x : Value}

/-- Wraps a value `n` times in the realm `i` after the events.  There is the function that comes of it, and
the run with the wraps in it, unless one of them is refused. -/
def wrapTimes (i : Nat) (v : Value) (events : List Event) : Nat → Option (Value × List Event)
  | 0 => some (v, events)
  | n + 1 => do
    let (u, past) ← wrapTimes i v events n
    match ((run past).perform i (.wrap u)).1 with
    | some (.ok (.value f)) => some (f, past ++ [.perform i (.wrap u)])
    | _ => none

/-- What is made of operators in the realm `i`, which is `r`, after the events. -/
structure OperatorLaws (events : List Event) (i : Nat) (r : Realm) : Prop where
  /-- What is an operator is wrapped, and nothing else. -/
  wrap_iff : ∀ v, (∃ f, ((run events).perform i (.wrap v)).1 = some (.ok (.value f))) ↔
    r.hasType v (.builtIn .operator) = true
  /-- The function unwraps to the value itself, in every realm and at any time. -/
  unwrap_wrap : ∀ v f, ((run events).perform i (.wrap v)).1 = some (.ok (.value f)) →
    ∀ (w : World) j s, w.realms[j]? = some s → (w.perform j (.unwrap f)).1 = some (.ok (.value v))
  /-- Wrapped any number of times, it is got back by unwrapping as often. -/
  wraps : ∀ v, r.hasType v (.builtIn .operator) = true → ∀ n, ∃ f past,
    wrapTimes i v events n = some (f, past) ∧ Action.unwrapTimes n f = .ok v
  /-- Every chain of functions ends, at a value that is no function and is not unwrapped. -/
  chain_ends : ∀ v, Action.unwrapTimes v.wrappers v = .ok v.innermost ∧
    ∀ n, v.wrappers < n → Action.unwrapTimes n v = .error (.notA .function v.innermost)
  /-- So does the way down the chain of any value that is applied, in one round more than the chain has
  functions. -/
  loop_ends : ∀ meaning args v rounds, Action.applyWithin meaning args rounds v =
    if v.wrappers < rounds then some (Action.applyWith meaning v args) else none
  /-- With a body at the end of the chain an application is one call of it with the given arguments,
  whatever bodies mean; -/
  calls_once : ∀ n f identity name body,
    Action.unwrapTimes n f = .ok (.builtIn identity name body) →
      ∀ meaning args, Action.applyWith meaning f args = meaning body args
  /-- what the body gives is the answer, and what it leaves stays, -/
  returns : ∀ n f identity name body,
    Action.unwrapTimes n f = .ok (.builtIn identity name body) → ∀ args x middle,
      (body.run args).runOn ⟨(run events).heap, r⟩ = (.ok x, middle) →
        ∃ after, (run events).perform i (.apply f args) = (some (.ok (.value x)), after) ∧
          after.heap = middle.heap ∧ after.realms[i]? = some middle.realm
  /-- and a fault of the body is the one that is reported. -/
  fails : ∀ n f identity name body,
    Action.unwrapTimes n f = .ok (.builtIn identity name body) → ∀ args e middle,
      (body.run args).runOn ⟨(run events).heap, r⟩ = (.error e, middle) →
        ∃ after, (run events).perform i (.apply f args) =
            (some (.error (middle.realm.report e middle.heap).1), after) ∧
          after.heap = (middle.realm.report e middle.heap).2 ∧
          after.realms[i]? = some middle.realm
  /-- An application fails without a call exactly if there is no body at the end of the chain. -/
  calls_none_iff : ∀ v args,
    (∀ meaning, Action.applyWith meaning v args = Action.fail .notABuiltInOperator) ↔
      ∀ identity name body, v.innermost ≠ .builtIn identity name body
  /-- The failure is reported by a new condition, and nothing else happens. -/
  refused : ∀ v args, (∀ identity name body, v.innermost ≠ .builtIn identity name body) →
    ∃ condition after, (run events).perform i (.apply v args) = (some (.error condition), after) ∧
      condition.object.classId = BuiltinClass.assertionError ∧
      condition.message = "Not a built-in operator" ∧
      (run events).heap.Grows after.heap ∧ after.realms[i]? = some r

/-! ### Wrapping and unwrapping -/

/-- Wrapping takes one identity, or fails and changes nothing. -/
theorem runOn_wrap_operation (image : Image) (v : Value) :
    (Operation.wrap v).action.runOn image =
      if image.realm.hasType v (.builtIn .operator) = true then
        (.ok (.value (.function image.heap.nextIdentity v)),
          { image with heap := image.heap.freshIdentity.2 })
      else (.error (.notA .operator v), image) := by
  rw [Operation.action, Action.runOn_bind, Action.runOn_wrap]
  by_cases htype : image.realm.hasType v (.builtIn .operator) = true
  · rw [if_pos htype, if_pos htype]
    rfl
  · rw [if_neg htype, if_neg htype]

/-- An operator is wrapped. -/
theorem perform_wrap_of_hasType (hr : w.realms[i]? = some r)
    (htype : r.hasType v (.builtIn .operator) = true) :
    ∃ identity after, w.perform i (.wrap v) =
        (some (.ok (.value (.function identity v))), after) ∧ after.realms[i]? = some r := by
  have hrun := runOn_wrap_operation ⟨w.heap, r⟩ v
  rw [if_pos htype] at hrun
  obtain ⟨after, hperform, -, hafter⟩ := perform_of_runOn_ok hr hrun
  exact ⟨_, after, hperform, hafter⟩

/-- What is wrapped was an operator. -/
theorem hasType_of_perform_wrap (hr : w.realms[i]? = some r)
    (h : (w.perform i (.wrap v)).1 = some (.ok (.value f))) :
    r.hasType v (.builtIn .operator) = true ∧ ∃ identity, f = .function identity v := by
  by_cases htype : r.hasType v (.builtIn .operator) = true
  · obtain ⟨identity, after, hperform, -⟩ := perform_wrap_of_hasType hr htype
    rw [hperform] at h
    cases h
    exact ⟨htype, identity, rfl⟩
  · have hrun := runOn_wrap_operation ⟨w.heap, r⟩ v
    rw [if_neg htype] at hrun
    obtain ⟨after, hperform, -⟩ := perform_of_runOn_error hr hrun
    rw [hperform] at h
    cases h

/-- A function is unwrapped in any realm. -/
theorem perform_unwrap_function (hr : w.realms[i]? = some r) (identity : Nat) (v : Value) :
    (w.perform i (.unwrap (.function identity v))).1 = some (.ok (.value v)) := by
  have hrun : (Operation.unwrap (.function identity v)).action.runOn ⟨w.heap, r⟩ =
      (.ok (.value v), ⟨w.heap, r⟩) := rfl
  obtain ⟨after, hperform, -⟩ := perform_of_runOn_ok hr hrun
  rw [hperform]

/-- **Wraps of wraps.** A function is an operator itself, so it is wrapped again. -/
theorem exists_wrapTimes (hr : (run events).realms[i]? = some r)
    (htype : r.hasType v (.builtIn .operator) = true) (n : Nat) :
    ∃ f past s, wrapTimes i v events n = some (f, past) ∧ Action.unwrapTimes n f = .ok v ∧
      (run past).realms[i]? = some s ∧ s.hasType f (.builtIn .operator) = true := by
  induction n with
  | zero => exact ⟨v, events, r, rfl, rfl, hr, htype⟩
  | succ n ih =>
    obtain ⟨u, past, s, hwraps, hunwraps, hs, hu⟩ := ih
    obtain ⟨identity, after, hperform, hafter⟩ := perform_wrap_of_hasType hs hu
    have hfunction : s.hasType (.function identity u) (.builtIn .operator) = true :=
      (Realm.hasType_builtIn_of_kind (hasBuiltIns_classes hs) rfl .operator).trans (by decide)
    refine ⟨.function identity u, past ++ [.perform i (.wrap u)], s, ?_, hunwraps, ?_, hfunction⟩
    · simp only [wrapTimes, hwraps, Option.bind_eq_bind, Option.bind_some, hperform]
    · rw [run_concat, World.after, hperform]
      exact hafter

/-! ### Applying -/

/-- An application answers with what the body gives, or fails as it does. -/
theorem runOn_apply (image : Image) (f args : Value) :
    (Operation.apply f args).action.runOn image =
      match (Action.apply f args).runOn image with
      | (.ok x, after) => (.ok (.value x), after)
      | (.error e, after) => (.error e, after) := by
  rw [Operation.action, Action.runOn_bind]
  obtain ⟨x | e, after⟩ := (Action.apply f args).runOn image <;> rfl

/-- **Operators.** In every realm that is ever reached, for all values. -/
theorem operatorLaws_run (hr : (run events).realms[i]? = some r) : OperatorLaws events i r := by
  constructor
  case wrap_iff =>
    intro v
    constructor
    · rintro ⟨f, h⟩
      exact (hasType_of_perform_wrap hr h).1
    · intro htype
      obtain ⟨identity, after, hperform, -⟩ := perform_wrap_of_hasType hr htype
      exact ⟨.function identity v, congrArg Prod.fst hperform⟩
  case unwrap_wrap =>
    intro v f h w j s hs
    -- what was wrapped is a function, so any realm can take the layer off
    obtain ⟨-, identity, rfl⟩ := hasType_of_perform_wrap hr h
    exact perform_unwrap_function hs identity v
  case wraps =>
    intro v htype n
    obtain ⟨f, past, -, hwraps, hunwraps, -⟩ := exists_wrapTimes hr htype n
    exact ⟨f, past, hwraps, hunwraps⟩
  case chain_ends =>
    intro v
    exact ⟨Action.unwrapTimes_wrappers v, fun n => Action.unwrapTimes_of_wrappers_lt⟩
  case loop_ends =>
    intro meaning args v rounds
    exact Action.applyWithin_eq meaning args rounds v
  case calls_once =>
    intro n f identity name body hf meaning args
    exact Action.applyWith_of_unwrapTimes hf
  case returns =>
    intro n f identity name body hf args x middle hbody
    -- the body runs in the image as it is, and what it leaves is what the application leaves
    have hrun := runOn_apply ⟨(run events).heap, r⟩ f args
    rw [Action.apply, Action.applyWith_of_unwrapTimes hf, hbody] at hrun
    exact perform_of_runOn_ok hr hrun
  case fails =>
    intro n f identity name body hf args e middle hbody
    have hrun := runOn_apply ⟨(run events).heap, r⟩ f args
    rw [Action.apply, Action.applyWith_of_unwrapTimes hf, hbody] at hrun
    exact perform_of_runOn_error hr hrun
  case calls_none_iff =>
    intro v args
    exact Action.applyWith_eq_fail_iff ⟨(run events).heap, r⟩ v args
  case refused =>
    intro v args hv
    have hrun := runOn_apply ⟨(run events).heap, r⟩ v args
    rw [Action.apply, Action.applyWith_of_ne_builtIn hv, Action.runOn_fail] at hrun
    obtain ⟨after, hperform, hheap, hafter⟩ := perform_of_runOn_error hr hrun
    refine ⟨_, after, hperform, rfl, rfl, ?_, hafter⟩
    rw [hheap]
    exact (run events).heap.grows_report r _

/-- An operator that answers its arguments. -/
def answering : Value :=
  .builtIn 0 ⟨0, 0, "list", .functions⟩ .arguments

/-- Wrapped twice it answers them too. -/
theorem operatorLaws_twiceWrapped :
    ∃ r f past, (run [.newRealm {}]).realms[0]? = some r ∧ OperatorLaws [.newRealm {}] 0 r ∧
      wrapTimes 0 answering [.newRealm {}] 2 = some (f, past) ∧
      ∀ args, ((run [.newRealm {}]).perform 0 (.apply f args)).1 = some (.ok (.value args)) := by
  have hr := realm_run_newRealm {}
  have hlaws := operatorLaws_run hr
  have htype : (Realm.boot {} 0 .empty).1.hasType answering (.builtIn .operator) = true :=
    (Realm.hasType_builtIn_of_kind (hasBuiltIns_classes hr) rfl .operator).trans (by decide)
  obtain ⟨f, past, hwraps, hunwraps⟩ := hlaws.wraps answering htype 2
  -- the body answers with its arguments
  have hbody : ∀ args image, (Primitive.arguments.run args).runOn image = (.ok args, image) := by
    intro args image
    simp only [Primitive.run, Action.runOn_bind, Action.runOn_get, Action.runOnItems,
      Action.runOn_pure]
  refine ⟨_, f, past, hr, hlaws, hwraps, fun args => ?_⟩
  obtain ⟨after, hperform, -⟩ := hlaws.returns 2 f _ _ _ hunwraps args args _ (hbody args _)
  rw [hperform]

end LispObjects.World
