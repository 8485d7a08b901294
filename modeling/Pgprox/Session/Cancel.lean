/-
The cancel registry: which upstream connection a client's cancel key stands for.

A key names the node that issued it and a secret drawn from the system's entropy.  The
registry has an entry for it from `hold` to `release` and at no other time.
-/

import Pgprox.Library.FiniteMap
import Pgprox.Core.Basic

namespace Pgprox.Session

structure ConnId where
  node : NodeId
  secret : Nat
  deriving DecidableEq

/-- `ConnId::new`: the secret keeps 48 bits. -/
def ConnId.new (node : NodeId) (secret : Nat) : ConnId :=
  ⟨node, secret % 2 ^ 48⟩

structure Cancellation where
  server : ServerId
  key : PoolKey
  backendKey : Int × Int
  deriving DecidableEq

inductive Routing
  | here (cancellation : Cancellation)
  | peer (node : NodeId)
  | unknown
  deriving DecidableEq

structure Registry where
  node : NodeId
  live : FiniteMap ConnId Cancellation

namespace Registry

def issue (registry : Registry) (entropy : Option Nat) : Option ConnId :=
  entropy.map (ConnId.new registry.node)

def hold (registry : Registry) (conn : ConnId) (cancellation : Cancellation) : Registry :=
  { registry with live := registry.live.insert conn cancellation }

def release (registry : Registry) (conn : ConnId) : Registry :=
  { registry with live := registry.live.erase conn }

def route (registry : Registry) (conn : ConnId) : Routing :=
  if conn.node ≠ registry.node then .peer conn.node
  else
    match registry.live.lookup conn with
    | some found => .here found
    | none => .unknown

variable (registry : Registry)

theorem lookup_hold (conn other : ConnId) (cancellation : Cancellation) :
    (registry.hold conn cancellation).live.lookup other =
      if other = conn then some cancellation else registry.live.lookup other :=
  registry.live.lookup_insert_if conn other cancellation

theorem lookup_release (conn other : ConnId) :
    (registry.release conn).live.lookup other =
      if other = conn then none else registry.live.lookup other :=
  registry.live.lookup_erase_if conn other

theorem lookup_of_route {conn : ConnId} {cancellation : Cancellation}
    (routed : registry.route conn = .here cancellation) :
    registry.live.lookup conn = some cancellation := by
  unfold route at routed
  split at routed
  · cases routed
  · split at routed
    · rename_i found entry
      cases routed
      exact entry
    · cases routed

end Registry

end Pgprox.Session
