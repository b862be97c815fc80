import ScriptSignal.World

/-!
# The entry points of a Signal

All arguments are checked before anything changes. What an entry point acquired is
given back when it fails, and a table is never looked into while references are given
back, because that may finalize other Signals of the same table.
-/

namespace ScriptSignal

set_option autoImplicit false

namespace World

def boundKey (world : World) (id : BridgeId) (handle : Value) : Except Failure Key :=
  match (world.bridge? id).bind fun bridge => world.slotKey? handle bridge.classId with
  | some key => .ok key
  | none => .error .noContext

def boundState (world : World) (id : BridgeId) (handle : Value) :
    Except Failure (Key × SignalState) :=
  match world.boundKey id handle with
  | .error failure => .error failure
  | .ok key =>
      match world.state? id key with
      | some state => .ok (key, state)
      | none => .error .noContext

def isBound (world : World) (id : BridgeId) (handle : Value) : Bool :=
  (world.boundState id handle).isOk

def bindHandle (world : World) (id : BridgeId) (handle : Value) (key : Option Key) : World :=
  match (world.bridge? id).map Bridge.classId with
  | some classId => world.setSlot handle classId key
  | none => world

/-- The prototype of a new Signal: that of the class, or what an explicit target
names. -/
def signalPrototype? (world : World) (id : BridgeId) (target : Value) : Except Failure Value :=
  if target.isUndefined then
    match (world.bridge? id).map Bridge.classId with
    | some classId => world.classPrototype? classId
    | none => .error .unknownClass
  else world.property? target "prototype"

def signalClass? (world : World) (id : BridgeId) : Option ClassId :=
  ((world.bridge? id).map Bridge.classId).filter world.isDefined

/-- Makes the handle. It is bound once the own reference to the prototype is given
back. -/
def constructLinked (world : World) (id : BridgeId) (route : Route) (target : Value)
    (link : Option StrongRef) : Outcome :=
  let unlink := link.toList.map Task.drop
  match world.signalPrototype? id target with
  | .error failure => world.after unlink (route.reply (.error failure))
  | .ok proto =>
      let world := world.duplicate proto
      match world.signalClass? id with
      | none => world.after (.release proto :: unlink) (route.reply (.error .unknownClass))
      | some classId =>
          let handle := world.nextValue
          (world.allocateInstance proto classId, [.release proto, .bind id route handle link])

def constructSignal (world : World) (id : BridgeId) (route : Route) (target : Value)
    (arguments : List Value) : Outcome :=
  match arguments with
  | [] | [.undefined] => world.constructLinked id route target none
  | [.object object] =>
      (world.acquire (.object object)).constructLinked id route target (some ⟨.object object⟩)
  | [_] => world.done (route.reply (.error .linkNotObject))
  | _ => world.done (route.reply (.error .argumentCount))

def bindSignal (world : World) (id : BridgeId) (route : Route) (handle : Value)
    (link : Option StrongRef) : Outcome :=
  match (world.bridge? id).map fun bridge => bridge.states.nextKey with
  | some key =>
      let world := world.modifyStates id fun states => states.insert ⟨none, link⟩
      ((world.bindHandle id handle (some key)).emit (.constructed key link.isSome)).done
        (route.reply (.ok handle))
  | none => world.after (link.toList.map .drop) (.refused .noBridge)

def connectable (world : World) (id : BridgeId) (handle callback : Value) :
    Except Failure (Key × SignalState) :=
  if world.isFunction callback then
    match world.boundState id handle with
    | .error failure => .error failure
    | .ok (key, state) =>
        if (world.config id).link = .required ∧ state.link = none then .error .noLink
        else if state.callback = none then .ok (key, state)
        else .error .alreadyConnected
  else .error .argumentKind

def connect (world : World) (id : BridgeId) (route : Route) (handle : Value)
    (arguments : List Value) : Outcome :=
  match arguments with
  | [callback] =>
      match world.connectable id handle callback with
      | .error failure => world.done (route.reply (.error failure))
      | .ok (key, state) =>
          let world := (world.acquire callback).modifyStates id fun states =>
            states.set key (state.connected callback)
          (world.emit (.connected key)).done (route.reply (.ok (.int connectionToken)))
  | _ => world.done (route.reply (.error .functionExpected))

/-- The callback is given back after the state was cleared. -/
def disconnectToken (world : World) (id : BridgeId) (route : Route) (handle : Value)
    (token : Int32) : Outcome :=
  match (world.config id).disconnect with
  | .alwaysFalse => world.done (route.reply (.ok (.bool false)))
  | .clearSlot =>
      match world.boundKey id handle with
      | .error failure => world.done (route.reply (.error failure))
      | .ok key =>
          let world := world.emit (.disconnecting key token)
          match world.state? id key with
          | none => world.done (route.reply (.error .noContext))
          | some state =>
              match state.callback with
              | none => world.done (route.reply (.ok (.bool false)))
              | some callback =>
                  (world.modifyStates id fun states => states.set key state.cleared).after
                    [.drop callback, .report (.disconnected key)]
                    (route.reply (.ok (.bool true)))

/-- Numbers of both kinds name the slot. -/
def disconnect (world : World) (id : BridgeId) (route : Route) (handle : Value)
    (arguments : List Value) : Outcome :=
  match arguments with
  | [token] =>
      match token.toInt32 with
      | .ok token => world.disconnectToken id route handle token
      | .error _ => world.done (route.reply (.error .argumentKind))
  | _ => world.done (route.reply (.error .argumentCount))

def isEmpty (world : World) (id : BridgeId) (route : Route) (handle : Value)
    (arguments : List Value) : Outcome :=
  match arguments with
  | [] =>
      world.done (route.reply
        ((world.boundState id handle).map fun (_, state) => .bool state.callback.isNone))
  | _ => world.done (route.reply (.error .argumentCount))

/-- Calls an entry point. For a construction the receiver is the explicit target. -/
def enterSignal (world : World) (id : BridgeId) (entry : Entry) (route : Route)
    (receiver : Value) (arguments : List Value) : Outcome :=
  match entry with
  | .construct => world.constructSignal id route receiver arguments
  | .connect => world.connect id route receiver arguments
  | .disconnect => world.disconnect id route receiver arguments
  | .isEmpty => world.isEmpty id route receiver arguments
  | .toString => world.done (route.reply (.ok (.string signalClassName)))

/-- Unbinds a handle and takes its state out before anything is given back. -/
def finalizeSignal (world : World) (id : BridgeId) (handle : Value) : Outcome :=
  match world.boundKey id handle with
  | .error _ => (world.emit .unboundFinalize, [])
  | .ok key =>
      let world := world.bindHandle id handle none
      match world.state? id key with
      | some state =>
          ((world.modifyStates id fun states => states.erase key).emit
              (.finalized key state.callback.isSome),
            state.held.map .drop)
      | none => (world.emit (.staleFinalize key), [])

/-- A bridge that nobody holds is taken down: its table is emptied and its states are
given up in the order of their slots. -/
def settleBridge (world : World) (id : BridgeId) : Outcome :=
  if world.holdsBridge id then (world, [])
  else
    let remaining := (world.bridge? id).elim [] fun bridge => bridge.states.entries
    let world := world.modifyStates id Slab.clear
    (if remaining.isEmpty then world else world.emit (.bridgeDropped remaining.length),
      remaining.flatMap fun state => state.held.map .drop)

end World

end ScriptSignal
