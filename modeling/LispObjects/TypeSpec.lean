import LispObjects.Value.Basic

namespace LispObjects

/-!
# Type specifications

A small language of conditions on a value: anything, the host's null, a representation tag, an
instance of a class, or one of several. What a specification accepts (`TypeSpec.accepts`) and how
messages show it (`TypeSpec.render`) depend on a class graph only through the classes that the value
is an instance of and through the classes' names.

Whether a value is an instance of a class need not ever be found out. `TypeSpec.accepts?` asks only
as much as the answer takes, and has no answer if one of these questions has none.
-/

/-- A condition on a value. -/
inductive TypeSpec where
  /-- Every value. -/
  | any
  /-- The host's null and nothing else. -/
  | null
  /-- Values with that representation tag. -/
  | tag (name : String)
  /-- Instances of the class and of the classes under it. -/
  | ofClass (c : ClassId)
  /-- Values that one of the members accepts; none if there are no members. -/
  | oneOf (members : List TypeSpec)

namespace TypeSpec

/-- Instances of a built-in class. -/
def builtIn (c : BuiltinClass) : TypeSpec :=
  ofClass c.id

mutual

/-- Whether the value satisfies the condition, given the classes that it is an instance of. -/
def accepts (instanceOf : ClassId → Bool) (v : Value) : TypeSpec → Bool
  | any => true
  | null => v.isNull
  | tag name => v.tag == name
  | ofClass c => instanceOf c
  | oneOf members => acceptsOneOf instanceOf v members

/-- Whether the value satisfies one of the conditions. -/
def acceptsOneOf (instanceOf : ClassId → Bool) (v : Value) : List TypeSpec → Bool
  | [] => false
  | spec :: rest => spec.accepts instanceOf v || acceptsOneOf instanceOf v rest

end

mutual

/-- Whether the value is found to satisfy the condition, if an answer is ever found. -/
def accepts? (instanceOf? : ClassId → Option Bool) (v : Value) : TypeSpec → Option Bool
  | any => some true
  | null => some v.isNull
  | tag name => some (v.tag == name)
  | ofClass c => instanceOf? c
  | oneOf members => acceptsOneOf? instanceOf? v members

/-- Whether one of the conditions is found that the value satisfies, the first ones tried first. -/
def acceptsOneOf? (instanceOf? : ClassId → Option Bool) (v : Value) : List TypeSpec → Option Bool
  | [] => some false
  | spec :: rest => do
    if ← spec.accepts? instanceOf? v then return true
    acceptsOneOf? instanceOf? v rest

end

mutual

/-- The condition as messages show it, given the names of classes. -/
def render (nameOf : ClassId → String) : TypeSpec → String
  | any => nameOf BuiltinClass.object
  | null => "\"null\""
  | tag name => Text.quoteString name
  | ofClass c => nameOf c
  | oneOf members => "(or" ++ renderMembers nameOf members ++ ")"

/-- The conditions, each after a space. -/
def renderMembers (nameOf : ClassId → String) : List TypeSpec → String
  | [] => ""
  | spec :: rest => " " ++ spec.render nameOf ++ renderMembers nameOf rest

end

/-- A union accepts what one of its members accepts. -/
theorem acceptsOneOf_eq_any (instanceOf : ClassId → Bool) (v : Value) (specs : List TypeSpec) :
    acceptsOneOf instanceOf v specs = specs.any (accepts instanceOf v) := by
  induction specs with
  | nil => rfl
  | cons spec rest ih => simp [acceptsOneOf, ih]

/-! ### Answers that are found -/

variable {instanceOf : ClassId → Bool} {instanceOf? : ClassId → Option Bool} {v : Value}

mutual

/-- If an answer is found for every class, one is found for every condition. -/
theorem accepts?_eq_some (h : ∀ c, instanceOf? c = some (instanceOf c)) :
    ∀ spec : TypeSpec, spec.accepts? instanceOf? v = some (spec.accepts instanceOf v)
  | any => rfl
  | null => rfl
  | tag _ => rfl
  | ofClass c => h c
  | oneOf members => acceptsOneOf?_eq_some h members

/-- The same for the members of a union. -/
theorem acceptsOneOf?_eq_some (h : ∀ c, instanceOf? c = some (instanceOf c)) :
    ∀ specs, acceptsOneOf? instanceOf? v specs = some (acceptsOneOf instanceOf v specs)
  | [] => rfl
  | spec :: rest => by
    rw [acceptsOneOf?, acceptsOneOf, accepts?_eq_some h spec, acceptsOneOf?_eq_some h rest]
    cases spec.accepts instanceOf v <;> rfl

end

mutual

/-- An answer that is found is the right one, if what is never found of a class does not hold of it. -/
theorem accepts_of_accepts? : ∀ {spec : TypeSpec} {b : Bool}, spec.accepts? instanceOf? v = some b →
    spec.accepts (fun c => (instanceOf? c).getD false) v = b
  | any, _, h => Option.some.inj h
  | null, _, h => Option.some.inj h
  | tag _, _, h => Option.some.inj h
  | ofClass _, _, h => congrArg (Option.getD · false) h
  | oneOf _, _, h => acceptsOneOf_of_acceptsOneOf? h

/-- The same for the members of a union, none of which is asked after one that accepts. -/
theorem acceptsOneOf_of_acceptsOneOf? : ∀ {specs : List TypeSpec} {b : Bool},
    acceptsOneOf? instanceOf? v specs = some b →
      acceptsOneOf (fun c => (instanceOf? c).getD false) v specs = b
  | [], _, h => Option.some.inj h
  | spec :: rest, _, h => by
    rw [acceptsOneOf?] at h
    rw [acceptsOneOf]
    -- the rest is asked only if the answer for the first one is no
    cases hspec : spec.accepts? instanceOf? v with
    | none =>
      rw [hspec] at h
      cases h
    | some found =>
      rw [hspec] at h
      rw [accepts_of_accepts? hspec]
      cases found with
      | true => exact Option.some.inj h
      | false => exact acceptsOneOf_of_acceptsOneOf? h

end

end TypeSpec

end LispObjects
