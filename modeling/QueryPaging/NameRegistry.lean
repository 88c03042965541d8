import QueryPaging.Fault
import QueryPaging.Table

/-!
# The name registry

The names taken within one run. Authored names are taken from the start. A generated name is claimed
together with the hash of the document it names; claiming it again for the same hash changes
nothing, and any other second claim is a collision.
-/

namespace QueryPaging

/-- Who took a name. -/
inductive Claim where
  | authored
  | generated (hash : String)
deriving DecidableEq

structure NameRegistry where
  claims : Table String Claim
deriving DecidableEq

namespace NameRegistry

def seeded (authored : List String) : NameRegistry :=
  ⟨authored.foldl (fun claims name => claims.put name .authored) []⟩

def get? (registry : NameRegistry) (name : String) : Option Claim :=
  registry.claims.get? name

def contains (registry : NameRegistry) (name : String) : Bool :=
  registry.claims.has name

def size (registry : NameRegistry) : Nat :=
  registry.claims.length

def isEmpty (registry : NameRegistry) : Bool :=
  registry.claims.isEmpty

def claim (registry : NameRegistry) (name hash : String) : Except Fault NameRegistry :=
  match registry.get? name with
  | none => .ok ⟨registry.claims.put name (.generated hash)⟩
  | some (.generated existing) =>
      if existing = hash then .ok registry else .error (.nameCollision name)
  | some .authored => .error (.nameCollision name)

/-- Give up a name claimed for a generated document. Authored names stay taken. -/
def release (registry : NameRegistry) (name : String) : NameRegistry :=
  ⟨registry.claims.filter fun entry => !(entry.1 == name && entry.2 != .authored)⟩

end NameRegistry

end QueryPaging
