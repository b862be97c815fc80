import ScriptSignal.World

/-!
# The transcript of a run

A record shows the answer of one step and what can be seen of the world once the step
was completed.
-/

namespace ScriptSignal

set_option autoImplicit false

structure Counts where
  live : Nat
  finalized : Nat
  pending : Nat
  /-- The registers that hold objects, with the counts of those still there. -/
  references : List (String × Option Nat)
deriving Repr, DecidableEq

structure Record where
  label : String
  reply : Reply
  /-- How many bodies were under way. -/
  depth : Nat
  counts : Option Counts
  /-- The bridges that the client holds, with the numbers of their states. -/
  states : List (String × Nat)
  /-- What was reported since the record before. -/
  events : List Event
deriving Repr, DecidableEq

namespace World

def counts (world : World) : Option Counts :=
  if world.engine.running then
    some
      { live := world.engine.heap.live
        finalized := world.engine.finalized
        pending := world.engine.backlog.pending
        references :=
          (world.client.registers.entries.filter fun (_, value) => value.isObject).map
            fun (name, value) => (name, world.refCount? value) }
  else none

def record (world : World) (label : String) (reply : Reply) (depth : Nat)
    (events : List Event) : Record where
  label
  reply
  depth
  counts := world.counts
  states := world.client.bridges.entries.map fun (name, id) => (name, world.liveStates id)
  events

end World

end ScriptSignal
