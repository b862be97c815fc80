import ScriptSignal.Signal.Entry

/-!
# Giving references back

An object that loses its last reference is reclaimed at once or put into the backlog,
as the engine's mode has it. To reclaim an object is to run its finalizer, to remove
it, and to give back what it owned.
-/

namespace ScriptSignal

set_option autoImplicit false

namespace World

def releaseObject (world : World) (id : ObjectId) : Outcome :=
  match world.engine.heap.get? id with
  | none => (world.emit (.unknownRelease id), [])
  | some object =>
      match object.refCount with
      | 0 => (world.emit (.unreferencedRelease id), [])
      | count + 1 =>
          let world := world.putObject id { object with refCount := count }
          if count = 0 then
            match world.engine.mode with
            | .immediate => (world, [.reclaim id])
            | .deferred =>
                let backlog := world.engine.backlog.defer id
                (({ world with engine.backlog := backlog }).emit (.deferred backlog.pending), [])
          else (world, [])

def release (world : World) (value : Value) : Outcome :=
  match value with
  | .object id => world.releaseObject id
  | _ => (world, [])

/-- A strong reference that outlived the engine has nothing to give back. -/
def dropReference (world : World) (held : StrongRef) : Outcome :=
  if world.engine.running then (world.emit (.released held.value), [.release held.value])
  else (world.emit (.hostGone held.value), [])

def runFinalizer (world : World) (id : ObjectId) : Outcome :=
  match (world.classOf? (.object id)).bind world.engine.registry.record? with
  | none => (world, [])
  | some record =>
      match record.finalizer with
      | .signal bridge => world.finalizeSignal bridge (.object id)
      | .script body => (world, [.enter body (.object id) [] .finalize])

/-- An object that came by a reference while it waited is left alone. -/
def reclaim (world : World) (id : ObjectId) : Outcome :=
  match world.engine.heap.get? id with
  | none => (world, [])
  | some object =>
      if object.refCount = 0 then
        let (world, tasks) := world.runFinalizer id
        (world, tasks ++ [.remove id])
      else (world.emit (.revived id object.refCount), [])

def removeObject (world : World) (id : ObjectId) : Outcome :=
  match world.engine.heap.get? id with
  | none => (world, [])
  | some object =>
      let world :=
        { world with
          engine.heap := world.engine.heap.remove id
          engine.finalized := world.engine.finalized + 1 }
      (world.emit (.reclaimed id), (world.engine.order.arrange id object.owned).map .release)

def drain (world : World) (count : Nat) : Outcome :=
  match world.engine.backlog.next? with
  | some (id, backlog) =>
      ({ world with engine.backlog := backlog }, [.reclaim id, .drain (count + 1)])
  | none => (if 0 < count then world.emit (.processed count) else world, [])

def collect (world : World) : Outcome :=
  let finish := Task.reportCollection world.engine.finalized
  if world.engine.backlog.hasPending then (world, [.drain 0, finish]) else (world, [finish])

def reportCollection (world : World) (finalizedBefore : Nat) : Outcome :=
  let count := world.engine.finalized - finalizedBefore
  let reported :=
    if 0 < count then world.emit (.collected count world.engine.heap.live) else world
  reported.done (.number (some (count : Int)))

def finalizeNow (world : World) (value : Value) : Outcome :=
  match value with
  | .object id => world.runFinalizer id
  | _ => (world, [])

/-- Writes a property and takes the value's reference over. What it replaces is given
back, and so is a value that could not be written. -/
def setProperty (world : World) (target : Value) (key : String) (value : Value) : Outcome :=
  match target with
  | .object id =>
      match world.engine.heap.get? id with
      | some object =>
          let replaced := object.properties.find? key
          let world :=
            world.putObject id { object with properties := object.properties.insert key value }
          world.after (replaced.toList.map .release) .nothing
      | none => world.after [.release value] (.raised .objectFreed)
  | _ => world.after [.release value] (.raised .unwritable)

end World

end ScriptSignal
