import ScriptSignal.Event
import ScriptSignal.Reply
import ScriptSignal.Script

/-!
# Work that is still to be done

Giving back a reference may reclaim an object, whose finalizer may run scripts that
give back further references. No operation therefore runs to its end in one piece.
Each does its immediate part and leaves the rest as tasks, in the order in which
they are to be done, before anything that was waiting already.
-/

namespace ScriptSignal

set_option autoImplicit false

inductive Purpose
  /-- It answers the step that called. -/
  | call
  /-- It is ignored. -/
  | finalize
deriving Repr, DecidableEq

inductive Task
  /-- Give back one counted reference. -/
  | release (value : Value)
  /-- Give back a strong reference, if the engine is still there. -/
  | drop (held : StrongRef)
  /-- Finalize and remove an object, unless it has references again. -/
  | reclaim (id : ObjectId)
  /-- Remove an object whose finalizer has run. -/
  | remove (id : ObjectId)
  /-- Reclaim what is waiting, after so many objects. -/
  | drain (count : Nat)
  /-- End a collection that began with so many objects finalized. -/
  | reportCollection (finalizedBefore : Nat)
  | report (event : Event)
  /-- Give a new handle its native state. -/
  | bind (bridge : BridgeId) (route : Route) (handle : Value) (link : Option StrongRef)
  /-- End a direct call on a bridge. -/
  | endCall (bridge : BridgeId)
  /-- Take a bridge down if nobody holds it. -/
  | settle (bridge : BridgeId)
  /-- Let the step under way answer this. -/
  | answer (reply : Reply)
  | enter (body : Body) (receiver : Value) (arguments : List Value) (purpose : Purpose)
  | leave (body : Body) (purpose : Purpose)
  | perform (step : Step)
  /-- List the answer of a step. -/
  | finish (label : String)
  | iterate (times : Nat) (steps : List Step)

end ScriptSignal
