import LispObjects.Decimal.Float
import LispObjects.Text.Quoted

namespace LispObjects

/-!
# Host values

Values of the surrounding system that the object model only carries about. Objects and functions of
the host are never looked into; each has an identity and nothing else.
-/

/-- A value of the host. -/
inductive HostValue where
  | null
  | undefined
  | boolean (b : Bool)
  | number (x : Binary64)
  | string (s : String)
  | object (identity : Nat)
  | function (identity : Nat)
  deriving DecidableEq, Repr

namespace HostValue

/-- The host's strict equality: null and undefined differ, numbers are compared as numbers, objects
and functions by identity. -/
def strictEq : HostValue → HostValue → Bool
  | number x, number y => x.numericEq y
  | a, b => a == b

/-- The name of the kind of representation. -/
def tag : HostValue → String
  | null | object _ => "object"
  | undefined => "undefined"
  | boolean _ => "boolean"
  | number _ => "number"
  | string _ => "string"
  | function _ => "function"

/-- The value as a description shows it. -/
def describe : HostValue → String
  | null => "null"
  | undefined => "undefined"
  | boolean b => toString b
  | number x => x.toPlain
  | string s => Text.quoteString s
  | object _ => "#<host object>"
  | function _ => "#<host function>"

end HostValue

end LispObjects
