import PolicyEngine.Identifier

/-!
# Key locks

Updates of one template or constraint exclude each other by locks that keys share. An engine that
works on one operation at a time needs to know only how many there are.

## Main definitions

* `PolicyEngine.KeyLocks`, `PolicyEngine.KeyLocks.ofCount`.
-/

namespace PolicyEngine

/-- The locks that keys share. -/
structure KeyLocks where
  stripes : Nat
  pos : 0 < stripes
deriving DecidableEq, Repr

namespace KeyLocks

/-- The number of locks unless something else is asked for. -/
def defaultCount : Nat := 64

/-- A given number of locks, but at least one. -/
def ofCount (n : Nat) : KeyLocks := ⟨max n 1, by omega⟩

/-- The usual number of locks. -/
def default : KeyLocks := ofCount defaultCount

instance : Inhabited KeyLocks := ⟨default⟩

end KeyLocks

end PolicyEngine
