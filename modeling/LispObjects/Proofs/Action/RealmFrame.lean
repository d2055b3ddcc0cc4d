import LispObjects.Proofs.Action.Footprint

namespace LispObjects

/-!
# What operations do to their realm

Only one operation touches more of its realm than the symbol table: the making of a class.  So
whatever interning keeps of a realm, every other operation keeps.

* `RealmFrame Q` — `Q` relates a realm to what interning makes of it, and is a preorder;
* `Operation.keeps_realm` — every operation but `makeClass` keeps such a `Q`.
-/

/-- A relation between a realm and what becomes of it that holds across every interning, and so
    across any number of them. -/
class RealmFrame (Q : Realm → Realm → Prop) : Prop extends IsPreorder Realm Q where
  intern : ∀ (r : Realm) (name : String) (space : Namespace),
    Q r { r with symbols := (r.symbols.intern name space).2 }

/-- The images' realms are related. -/
def OnRealm (Q : Realm → Realm → Prop) (i j : Image) : Prop :=
  Q i.realm j.realm

variable {Q : Realm → Realm → Prop} [RealmFrame Q]

/-- No step on the heap matters to the realm. -/
instance : ImageFrame (OnRealm Q) where
  refl i := refl_of Q i.realm
  trans _ _ _ hij hjk := trans_of Q hij hjk
  intern i := RealmFrame.intern i.realm
  grows i _ _ := refl_of Q i.realm
  inputs i _ := refl_of Q i.realm
  outputs i _ := refl_of Q i.realm
  nextIdentity i _ := refl_of Q i.realm

/-- **One exception.** Whatever interning keeps of a realm, every operation keeps, unless it makes a
    class. -/
theorem Operation.keeps_realm {op : Operation} (h : ∀ name v, op ≠ .makeClass name v) :
    Action.Keeps (OnRealm Q) op.action := by
  refine keeps fun p hp => ?_
  cases p with
  | classes => cases op <;> simp [footprint] at hp h
  | frames => exact fun image _ => refl_of Q image.realm
  | slots => exact fun image _ => refl_of Q image.realm
  | pairs => exact fun image _ => refl_of Q image.realm

end LispObjects
