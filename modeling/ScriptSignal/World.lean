import ScriptSignal.Backlog
import ScriptSignal.Heap
import ScriptSignal.Registry
import ScriptSignal.Task

/-!
# The engine, its bridges and its client

A world is everything that commands act on. This module has what can be read from a
world, and the changes that never give a reference back and so are done in one piece.
Whatever can fail is a reading. The changes that follow a successful reading cannot
fail, so a failure leaves no trace.
-/

namespace ScriptSignal

set_option autoImplicit false

inductive ReclaimMode
  /-- At once. -/
  | immediate
  /-- At the next collection. -/
  | deferred
deriving Repr, DecidableEq, Inhabited

/-- The order in which an engine enumerates what an object owns. Properties are kept by their
hashes, so it may be any order, and another one for every object. -/
structure Enumeration where
  arrange : ObjectId → List Value → List Value
  perm : ∀ id values, (arrange id values).Perm values

def Enumeration.stored : Enumeration := ⟨fun _ values => values, fun _ values => .refl values⟩

/-- What a machine is started with. No more bodies than the limit run within each other. -/
structure Setting where
  mode : ReclaimMode
  order : Enumeration := .stored
  limit : Nat := 16

namespace Setting

def immediate : Setting := { mode := .immediate }

def deferred : Setting := { mode := .deferred }

instance : Coe ReclaimMode Setting := ⟨fun mode => { mode }⟩

end Setting

structure Engine where
  mode : ReclaimMode
  order : Enumeration
  running : Bool
  heap : Heap
  registry : Registry
  backlog : Backlog ObjectId
  finalized : Nat

namespace Engine

def start (setting : Setting) : Engine where
  mode := setting.mode
  order := setting.order
  running := true
  heap := .empty
  registry := .empty
  backlog := .empty
  finalized := 0

def stopped (mode : ReclaimMode) : Engine := { start mode with running := false }

end Engine

/-- What the client holds by name. Registers copy values and count no references. -/
structure Client where
  registers : NameMap Value
  bridges : NameMap BridgeId
  references : NameMap StrongRef
  states : NameMap SignalState

def Client.empty : Client := ⟨.empty, .empty, .empty, .empty⟩

structure World where
  engine : Engine
  /-- All bridges ever made. One that was taken down has an empty table. -/
  bridges : Array Bridge
  client : Client
  events : Array Event

namespace World

def start (setting : Setting) : World := ⟨.start setting, #[], .empty, #[]⟩

def emit (world : World) (event : Event) : World :=
  { world with events := world.events.push event }

def object? (world : World) (value : Value) : Option Object :=
  value.object?.bind world.engine.heap.get?

def isAlive (world : World) (value : Value) : Bool := (world.object? value).isSome

def refCount? (world : World) (value : Value) : Option Nat :=
  (world.object? value).map Object.refCount

def prototype? (world : World) (value : Value) : Option Value :=
  ((world.object? value).bind Object.proto).map .object

def functionName? (world : World) (value : Value) : Option String :=
  match (world.object? value).map Object.kind with
  | some (.function name) => some name
  | _ => none

def isFunction (world : World) (value : Value) : Bool := (world.functionName? value).isSome

def classOf? (world : World) (value : Value) : Option ClassId :=
  match (world.object? value).map Object.kind with
  | some (.native classId _) => some classId
  | _ => none

def slotKey? (world : World) (value : Value) (classId : ClassId) : Option Key :=
  match (world.object? value).map Object.kind with
  | some (.native ofClass slot) => if ofClass = classId then slot.map Key.ofBits else none
  | _ => none

def property? (world : World) (value : Value) (key : String) : Except Failure Value :=
  match value with
  | .object id => .ok ((world.engine.heap.lookup id key).getD .undefined)
  | _ => .error (.unreadable key)

def isDefined (world : World) (classId : ClassId) : Bool :=
  (world.engine.registry.record? classId).isSome

def classPrototype? (world : World) (classId : ClassId) : Except Failure Value :=
  match world.engine.registry.record? classId with
  | some record => .ok (.object record.proto)
  | none => .error .unknownClass

def bridge? (world : World) (id : BridgeId) : Option Bridge := world.bridges[id.index]?

def config (world : World) (id : BridgeId) : Config :=
  (world.bridge? id).elim {} Bridge.config

def state? (world : World) (id : BridgeId) (key : Key) : Option SignalState :=
  (world.bridge? id).bind fun bridge => bridge.states.get? key

def liveStates (world : World) (id : BridgeId) : Nat :=
  (world.bridge? id).elim 0 fun bridge => bridge.states.count

def putObject (world : World) (id : ObjectId) (object : Object) : World :=
  { world with engine.heap := world.engine.heap.put id object }

def nextValue (world : World) : Value := .object world.engine.heap.nextId

def allocate (world : World) (kind : ObjectKind) (proto : Option ObjectId) : World :=
  { world with engine.heap := world.engine.heap.alloc kind proto }

/-- Counts one more reference to a value. A full word would start over here; no run in bounds comes
to that. -/
def duplicate (world : World) : Value → World
  | .object id =>
      match world.engine.heap.get? id with
      | some object => world.putObject id { object with refCount := object.refCount + 1 }
      | none => world.emit (.unknownDuplicate id)
  | _ => world

def acquire (world : World) (value : Value) : World :=
  (world.duplicate value).emit (.acquired value)

/-- Writes the slot of an instance of a class. On other values nothing happens. -/
def setSlot (world : World) (value : Value) (classId : ClassId) (key : Option Key) : World :=
  match value with
  | .object id =>
      match world.engine.heap.get? id with
      | some object =>
          match object.kind with
          | .native ofClass _ =>
              if ofClass = classId then
                world.putObject id { object with kind := .native ofClass (key.map Key.toBits) }
              else world
          | _ => world
      | none => world
  | _ => world

/-- A new instance of a class. Only a live object becomes its prototype. -/
def allocateInstance (world : World) (proto : Value) (classId : ClassId) : World :=
  if world.isAlive proto then
    (world.duplicate proto).allocate (.native classId none) proto.object?
  else world.allocate (.native classId none) none

def reserveClass (world : World) : World :=
  { world with engine.registry := world.engine.registry.reserve }

def defineClass (world : World) (classId : ClassId) (definition : ClassDefinition) : World :=
  let registered :=
    { world with
      engine.registry :=
        world.engine.registry.define classId definition world.engine.heap.nextId }
  (registered.allocate .plain none).emit (.classDefined definition.name classId)

def nextBridge (world : World) : BridgeId := ⟨world.bridges.size⟩

def addBridge (world : World) (classId : ClassId) (config : Config) (installed : Bool) : World :=
  { world with bridges := world.bridges.push ⟨classId, config, .empty, installed, 0⟩ }

def modifyBridge (world : World) (id : BridgeId) (change : Bridge → Bridge) : World :=
  { world with bridges := world.bridges.modify id.index change }

def modifyStates (world : World) (id : BridgeId)
    (change : Slab SignalState → Slab SignalState) : World :=
  world.modifyBridge id fun bridge => { bridge with states := change bridge.states }

/-- A client's handle, the functions of a defined class and a direct call under way
each hold a bridge. -/
def holdsBridge (world : World) (id : BridgeId) : Bool :=
  world.client.bridges.values.any (· = id)
    || (world.bridge? id).any fun bridge =>
      (bridge.installed && world.engine.running) || 0 < bridge.active

end World

/-- What an operation leaves: the world after its immediate part, and what is still to
be done. -/
abbrev Outcome := World × List Task

namespace World

def done (world : World) (reply : Reply) : Outcome := (world, [.answer reply])

/-- An operation that gives some references back before it answers. -/
def after (world : World) (tasks : List Task) (reply : Reply) : Outcome :=
  (world, tasks ++ [.answer reply])

/-- Answers with a value that the caller then owns a reference to, or with the failure. -/
def give (world : World) (found : Except Failure Value) : Outcome :=
  match found with
  | .ok value => (world.duplicate value).done (.value value)
  | .error failure => world.done (.failed failure)

def getProperty (world : World) (value : Value) (key : String) : Outcome :=
  world.give (world.property? value key)

def classPrototype (world : World) (classId : ClassId) : Outcome :=
  world.give (world.classPrototype? classId)

def instantiate (world : World) (proto : Value) (classId : ClassId) : Outcome :=
  if world.isDefined classId then
    let handle := world.nextValue
    (world.allocateInstance proto classId).done (.value handle)
  else world.done (.failed .unknownClass)

end World

end ScriptSignal
