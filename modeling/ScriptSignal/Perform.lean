import ScriptSignal.Call
import ScriptSignal.Holding

/-!
# Carrying commands out

One function for each family of commands. Operands are read before anything changes.
-/

namespace ScriptSignal

set_option autoImplicit false

namespace World

def performValue (world : World) (read : Operand → Value) : ValueCommand → Outcome
  | .read value => world.done (.value (read value))
  | .forget register =>
      { world with client.registers := world.client.registers.erase register }.done .nothing
  | .same left right => world.done (.flag ((read left).same (read right)))
  | .inspect value => world.done (.inspected (read value))

def performObject (world : World) (read : Operand → Value) : ObjectCommand → Outcome
  | .create =>
      let value := world.nextValue
      (world.allocate .plain none).done (.value value)
  | .createFunction name =>
      let value := world.nextValue
      (world.allocate (.function name) none).done (.value value)
  | .setProperty object key value => world.setProperty (read object) key (read value)
  | .getProperty object key => world.getProperty (read object) key
  | .prototype value =>
      world.done ((world.prototype? (read value)).elim .nothing .value)
  | .functionName value => world.done (.text (world.functionName? (read value)))
  | .classOf value =>
      world.done (.number ((world.classOf? (read value)).map fun classId =>
        (classId.number.toNat : Int)))
  | .duplicate value => (world.duplicate (read value)).done (.value (read value))
  | .release value => world.after [.release (read value)] .nothing
  | .alive value => world.done (.liveness (world.refCount? (read value)))
  | .collect => world.collect
  | .finalizeNow value =>
      let (world, tasks) := world.finalizeNow (read value)
      world.after tasks .nothing
  | .setSlot value classId key => (world.setSlot (read value) classId key).done .nothing
  | .getSlot value classId => world.done (.key (world.slotKey? (read value) classId))
  | .kind value =>
      let value := read value
      world.done (.kinds value.isUndefined value.isObject (world.isFunction value) value.isNumber)
  | .toInt32 value =>
      match (read value).toInt32 with
      | .ok number => world.done (.number (some number.toInt))
      | .error failure => world.done (.failed failure)
  | .make value => world.done (.value value)
  | .throw failure => world.done (.raised failure.toException)

def performClass (world : World) (read : Operand → Value) : ClassCommand → Outcome
  | .find name =>
      world.done (.number ((world.engine.registry.idOf? name).map fun classId =>
        (classId.number.toNat : Int)))
  | .reserve =>
      let classId := world.engine.registry.nextId
      world.reserveClass.done (.number (some (classId.number.toNat : Int)))
  | .prototype classId => world.classPrototype classId
  | .instantiate proto classId => world.instantiate (read proto) classId
  | .construct name none arguments => world.construct name (arguments.map read)
  | .construct name (some target) arguments =>
      world.constructWithTarget name (read target) (arguments.map read)
  | .callMethod receiver name arguments =>
      world.callMethod (read receiver) name (arguments.map read)
  | .callClassMethod className name receiver arguments =>
      world.callClassMethod className name (read receiver) (arguments.map read)

def withBridge (world : World) (name : String) (act : World → BridgeId → Outcome) : Outcome :=
  match world.client.bridges.find? name with
  | some id => act world id
  | none => world.done (.refused .noBridge)

def performBridge (world : World) (read : Operand → Value) : BridgeCommand → Outcome
  | .install name config => world.installBridge name config
  | .create name classId config => world.createBridge name classId config
  | .drop name => world.dropBridge name
  | .describe name =>
      world.withBridge name fun world id =>
        world.done ((world.bridge? id).elim (.refused .noBridge) .bridge)
  | .enter name entry receiver arguments =>
      world.withBridge name fun world id =>
        world.enterBridge id entry (read receiver) (arguments.map read)
  | .finalize name handle =>
      world.withBridge name fun world id => world.finalizeThrough id (read handle)
  | .isBound name handle =>
      world.withBridge name fun world id => world.done (.flag (world.isBound id (read handle)))

def performReference (world : World) (read : Operand → Value) : ReferenceCommand → Outcome
  | .acquire name value => world.acquireReference name (read value)
  | .read name =>
      world.done ((world.client.references.find? name).elim (.refused .noReference)
        fun held => .held (some held.value))
  | .describe name =>
      world.done ((world.client.references.find? name).elim (.refused .noReference)
        fun held => .text (some held.text))
  | .drop name => world.dropNamedReference name

def performState (world : World) (read : Operand → Value) : StateCommand → Outcome
  | .create name link => world.createState name link
  | .setCallback name callback => world.setStateCallback name (read callback)
  | .clear name keep => world.clearState name keep
  | .describe name =>
      world.done ((world.client.states.find? name).elim (.refused .noState) .state)
  | .drop name => world.dropState name

def performRunning (world : World) (read : Operand → Value) : Command → Outcome
  | .value command => world.performValue read command
  | .object command => world.performObject read command
  | .classes command => world.performClass read command
  | .bridge command => world.performBridge read command
  | .reference command => world.performReference read command
  | .state command => world.performState read command
  | .shutDown => world.shutDown

def perform (world : World) (read : Operand → Value) (command : Command) : Outcome :=
  if command.needsEngine && !world.engine.running then world.done (.refused .noEngine)
  else world.performRunning read command

def defineScripted (world : World) (classId : ClassId) (name : String) (constructor : Body)
    (methods : List (String × Body)) (finalizer : Body) : Outcome :=
  let definition : ClassDefinition :=
    { name
      constructor := .script constructor
      methods := methods.map fun (name, body) => (name, .script body)
      finalizer := .script finalizer }
  if world.engine.running then
    match world.engine.registry.checkOpen classId with
    | .ok () => (world.defineClass classId definition).done .nothing
    | .error failure => world.done (.failed failure)
  else world.done (.refused .noEngine)

end World

end ScriptSignal
