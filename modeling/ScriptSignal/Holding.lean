import ScriptSignal.Reclaim

/-!
# What a client holds by name

Bridges, strong references and Signal states have a space of names each. Storing over
an existing entry drops the old one after the new one was made and stored.
-/

namespace ScriptSignal

set_option autoImplicit false

namespace World

def setRegister (world : World) (name : String) (value : Value) : World :=
  { world with client.registers := world.client.registers.insert name value }

def storeBridge (world : World) (name : String) (id : BridgeId) (reply : Reply) : Outcome :=
  let replaced := world.client.bridges.find? name
  { world with client.bridges := world.client.bridges.insert name id }.after
    (replaced.toList.map .settle) reply

/-- Makes a class of Signals with a bridge of its own. Its class id is a new one, which
cannot be defined only once the numbers of classes have run out. -/
def installBridge (world : World) (name : String) (config : Config) : Outcome :=
  let classId := world.engine.registry.nextId
  let id := world.nextBridge
  let world := world.reserveClass
  match world.engine.registry.checkOpen classId with
  | .error failure => world.done (.failed failure)
  | .ok () =>
      let world := (world.addBridge classId config true).defineClass classId id.definition
      (world.emit (.installed classId config.disconnect)).storeBridge name id
        (.number (some (classId.number.toNat : Int)))

def createBridge (world : World) (name : String) (classId : ClassId) (config : Config) :
    Outcome :=
  let id := world.nextBridge
  (world.addBridge classId config false).storeBridge name id .nothing

def dropBridge (world : World) (name : String) : Outcome :=
  match world.client.bridges.find? name with
  | none => world.done (.flag false)
  | some id =>
      { world with client.bridges := world.client.bridges.erase name }.after [.settle id]
        (.flag true)

def beginCall (world : World) (id : BridgeId) : World :=
  world.modifyBridge id fun bridge => { bridge with active := bridge.active + 1 }

def endCall (world : World) (id : BridgeId) : Outcome :=
  (world.modifyBridge id fun bridge => { bridge with active := bridge.active - 1 }).settleBridge id

def enterBridge (world : World) (id : BridgeId) (entry : Entry) (receiver : Value)
    (arguments : List Value) : Outcome :=
  let (world, tasks) := (world.beginCall id).enterSignal id entry .direct receiver arguments
  (world, tasks ++ [.endCall id])

def finalizeThrough (world : World) (id : BridgeId) (handle : Value) : Outcome :=
  let (world, tasks) := (world.beginCall id).finalizeSignal id handle
  (world, tasks ++ [.answer .nothing, .endCall id])

def storeReference (world : World) (name : String) (held : StrongRef) (reply : Reply) : Outcome :=
  let replaced := world.client.references.find? name
  { world with client.references := world.client.references.insert name held }.after
    (replaced.toList.map .drop) reply

def acquireReference (world : World) (name : String) (value : Value) : Outcome :=
  (world.acquire value).storeReference name ⟨value⟩ .nothing

def dropNamedReference (world : World) (name : String) : Outcome :=
  match world.client.references.find? name with
  | none => world.done (.refused .noReference)
  | some held =>
      { world with client.references := world.client.references.erase name }.after
        [.drop held] .nothing

def putState (world : World) (name : String) (state : SignalState) : World :=
  { world with client.states := world.client.states.insert name state }

/-- Makes an empty state. A strong reference named as its link moves into it. -/
def createState (world : World) (name : String) (link : Option String) : Outcome :=
  let held := link.bind world.client.references.find?
  let world :=
    match link with
    | some link => { world with client.references := world.client.references.erase link }
    | none => world
  let replaced := world.client.states.find? name
  (world.putState name ⟨none, held⟩).after
    (replaced.toList.flatMap fun state => state.held.map .drop) .nothing

def setStateCallback (world : World) (name : String) (callback : Value) : Outcome :=
  match world.client.states.find? name with
  | none => world.done (.refused .noState)
  | some state =>
      if state.callback = none then
        ((world.acquire callback).putState name (state.connected callback)).done .nothing
      else world.done (.failed .alreadyConnected)

/-- Detaches the callback of a state. The detached reference is kept under a name, or
given back at once. -/
def clearState (world : World) (name : String) (keep : Option String) : Outcome :=
  match world.client.states.find? name with
  | none => world.done (.refused .noState)
  | some state =>
      match state.callback with
      | none => world.done (.held none)
      | some callback =>
          let world := world.putState name state.cleared
          let reply := Reply.held (some callback.value)
          match keep with
          | some keep => world.storeReference keep callback reply
          | none => world.after [.drop callback] reply

def dropState (world : World) (name : String) : Outcome :=
  match world.client.states.find? name with
  | none => world.done (.refused .noState)
  | some state =>
      { world with client.states := world.client.states.erase name }.after
        (state.held.map .drop) .nothing

/-- Tears the engine down. Its objects vanish without being finalized, and bridges that
only their classes held are taken down in the order in which they were made. -/
def shutDown (world : World) : Outcome :=
  if world.engine.running then
    let stopped := { world with engine := .stopped world.engine.mode }
    stopped.after ((List.range world.bridges.size).map fun index => .settle ⟨index⟩) .nothing
  else world.done .nothing

end World

end ScriptSignal
