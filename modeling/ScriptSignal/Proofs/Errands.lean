import ScriptSignal.Proofs.Handles

/-!
# What a command comes to

Every command reads its operands and looks up the names it speaks of before anything changes.
It then comes to one of a few errands, and many commands to an answer only. This module says
which errand it is and what is known of the values and functions in it, so whatever is to be
shown of all commands needs to be shown of errands.
-/

namespace ScriptSignal

set_option autoImplicit false

/-- What is left of a command once its operands are read and its names are looked up. -/
inductive Errand
  | answer (reply : Reply)
  | forget (register : String)
  | allocate (kind : ObjectKind)
  | setProperty (object : Value) (key : String) (value : Value)
  | getProperty (object : Value) (key : String)
  | duplicate (value : Value)
  | release (value : Value)
  | collect
  | finalizeNow (value : Value)
  | setSlot (value : Value) (classId : ClassId) (key : Option Key)
  | reserve
  | classPrototype (classId : ClassId)
  | instantiate (proto : Value) (classId : ClassId)
  | call (function : NativeFunction) (receiver : Value) (arguments : List Value)
  | install (name : String) (config : Config)
  | createBridge (name : String) (classId : ClassId) (config : Config)
  | dropBridge (name : String)
  | enter (bridge : BridgeId) (entry : Entry) (receiver : Value) (arguments : List Value)
  | finalize (bridge : BridgeId) (handle : Value)
  | acquire (name : String) (value : Value)
  | dropReference (name : String)
  | createState (name : String) (link : Option String)
  | setCallback (name : String) (callback : Value)
  | clearState (name : String) (keep : Option String)
  | dropState (name : String)
  | shutDown

def Errand.calling (function : Option NativeFunction) (missing : Exception) (receiver : Value)
    (arguments : List Value) : Errand :=
  match function with
  | some function => .call function receiver arguments
  | none => .answer (.raised missing)

def Reply.values : Reply → List Value
  | .value kept => [kept]
  | _ => []

namespace Command

/-- Whether the client comes to own a reference to the value that is answered. -/
def owning : Command → Bool
  | .object command =>
      match command with
      | .create | .createFunction _ | .getProperty _ _ | .duplicate _ => true
      | _ => false
  | .classes command =>
      match command with
      | .find _ | .reserve => false
      | _ => true
  | .bridge (.enter _ _ _ _) => true
  | _ => false

def given (read : Operand → Value) : Command → List Value
  | .object (.release operand) => [read operand]
  | .object (.setProperty _ _ operand) => [read operand]
  | _ => []

end Command

namespace World

def atBridge (world : World) (name : String) (errand : BridgeId → Errand) : Errand :=
  match world.client.bridges.find? name with
  | some id => errand id
  | none => .answer (.refused .noBridge)

def errand (world : World) (read : Operand → Value) : Command → Errand
  | .value (.read value) => .answer (.value (read value))
  | .value (.forget register) => .forget register
  | .value (.same left right) => .answer (.flag ((read left).same (read right)))
  | .value (.inspect value) => .answer (.inspected (read value))
  | .object .create => .allocate .plain
  | .object (.createFunction name) => .allocate (.function name)
  | .object (.setProperty object key value) => .setProperty (read object) key (read value)
  | .object (.getProperty object key) => .getProperty (read object) key
  | .object (.prototype value) =>
      .answer ((world.prototype? (read value)).elim .nothing .value)
  | .object (.functionName value) => .answer (.text (world.functionName? (read value)))
  | .object (.classOf value) =>
      .answer (.number ((world.classOf? (read value)).map fun classId =>
        (classId.number.toNat : Int)))
  | .object (.duplicate value) => .duplicate (read value)
  | .object (.release value) => .release (read value)
  | .object (.alive value) => .answer (.liveness (world.refCount? (read value)))
  | .object .collect => .collect
  | .object (.finalizeNow value) => .finalizeNow (read value)
  | .object (.setSlot value classId key) => .setSlot (read value) classId key
  | .object (.getSlot value classId) => .answer (.key (world.slotKey? (read value) classId))
  | .object (.kind value) =>
      .answer (.kinds (read value).isUndefined (read value).isObject
        (world.isFunction (read value)) (read value).isNumber)
  | .object (.toInt32 value) =>
      match (read value).toInt32 with
      | .ok number => .answer (.number (some number.toInt))
      | .error failure => .answer (.failed failure)
  | .object (.make value) => .answer (.value value)
  | .object (.throw failure) => .answer (.raised failure.toException)
  | .classes (.find name) =>
      .answer (.number ((world.engine.registry.idOf? name).map fun classId =>
        (classId.number.toNat : Int)))
  | .classes .reserve => .reserve
  | .classes (.prototype classId) => .classPrototype classId
  | .classes (.instantiate proto classId) => .instantiate (read proto) classId
  | .classes (.construct name target arguments) =>
      .calling ((world.engine.registry.find? name).map ClassRecord.constructor)
        (.undefinedClass name) (target.elim .undefined read) (arguments.map read)
  | .classes (.callMethod receiver name arguments) =>
      .calling ((world.classOf? (read receiver)).bind fun classId => world.method? classId name)
        (.notFunction name) (read receiver) (arguments.map read)
  | .classes (.callClassMethod className name receiver arguments) =>
      match world.engine.registry.idOf? className with
      | some classId =>
          .calling (world.method? classId name) (.notFunction name) (read receiver)
            (arguments.map read)
      | none => .answer (.raised (.undefinedClass className))
  | .bridge (.install name config) => .install name config
  | .bridge (.create name classId config) => .createBridge name classId config
  | .bridge (.drop name) => .dropBridge name
  | .bridge (.describe name) =>
      world.atBridge name fun id =>
        .answer ((world.bridge? id).elim (.refused .noBridge) .bridge)
  | .bridge (.enter name entry receiver arguments) =>
      world.atBridge name fun id => .enter id entry (read receiver) (arguments.map read)
  | .bridge (.finalize name handle) => world.atBridge name fun id => .finalize id (read handle)
  | .bridge (.isBound name handle) =>
      world.atBridge name fun id => .answer (.flag (world.isBound id (read handle)))
  | .reference (.acquire name value) => .acquire name (read value)
  | .reference (.read name) =>
      .answer ((world.client.references.find? name).elim (.refused .noReference)
        fun held => .held (some held.value))
  | .reference (.describe name) =>
      .answer ((world.client.references.find? name).elim (.refused .noReference)
        fun held => .text (some held.text))
  | .reference (.drop name) => .dropReference name
  | .state (.create name link) => .createState name link
  | .state (.setCallback name callback) => .setCallback name (read callback)
  | .state (.clear name keep) => .clearState name keep
  | .state (.describe name) =>
      .answer ((world.client.states.find? name).elim (.refused .noState) .state)
  | .state (.drop name) => .dropState name
  | .shutDown => .shutDown

def undertake (world : World) : Errand → Outcome
  | .answer reply => world.done reply
  | .forget register =>
      { world with client.registers := world.client.registers.erase register }.done .nothing
  | .allocate kind => (world.allocate kind none).done (.value world.nextValue)
  | .setProperty object key value => world.setProperty object key value
  | .getProperty object key => world.getProperty object key
  | .duplicate value => (world.duplicate value).done (.value value)
  | .release value => world.after [.release value] .nothing
  | .collect => world.collect
  | .finalizeNow value =>
      (world.finalizeNow value).1.after (world.finalizeNow value).2 .nothing
  | .setSlot value classId key => (world.setSlot value classId key).done .nothing
  | .reserve =>
      world.reserveClass.done
        (.number (some (world.engine.registry.nextId.number.toNat : Int)))
  | .classPrototype classId => world.classPrototype classId
  | .instantiate proto classId => world.instantiate proto classId
  | .call function receiver arguments => world.call function receiver arguments
  | .install name config => world.installBridge name config
  | .createBridge name classId config => world.createBridge name classId config
  | .dropBridge name => world.dropBridge name
  | .enter bridge entry receiver arguments => world.enterBridge bridge entry receiver arguments
  | .finalize bridge handle => world.finalizeThrough bridge handle
  | .acquire name value => world.acquireReference name value
  | .dropReference name => world.dropNamedReference name
  | .createState name link => world.createState name link
  | .setCallback name callback => world.setStateCallback name callback
  | .clearState name keep => world.clearState name keep
  | .dropState name => world.dropState name
  | .shutDown => world.shutDown

section Errands

variable {world : World} {read : Operand → Value}

theorem undertake_calling (function : Option NativeFunction) (missing : Exception)
    (receiver : Value) (arguments : List Value) :
    world.undertake (.calling function missing receiver arguments) =
      world.callFound function missing receiver arguments := by
  cases function <;> rfl

theorem undertake_at_bridge {name : String} {errand : BridgeId → Errand}
    {act : World → BridgeId → Outcome} (same : ∀ id, world.undertake (errand id) = act world id) :
    world.undertake (world.atBridge name errand) = world.withBridge name act := by
  unfold atBridge withBridge
  cases world.client.bridges.find? name with
  | none => rfl
  | some id => exact same id

/-- A command is carried out by its errand. -/
theorem undertake_errand (command : Command) :
    world.undertake (world.errand read command) = world.performRunning read command := by
  cases command with
  | value command => cases command <;> rfl
  | object command =>
      cases command with
      | toInt32 value =>
          simp only [errand, performRunning, performObject]
          cases (read value).toInt32 <;> rfl
      | _ => rfl
  | classes command =>
      cases command with
      | construct name target arguments =>
          simp only [errand, undertake_calling]
          cases target <;> rfl
      | callMethod receiver name arguments =>
          simp only [errand, undertake_calling]
          rfl
      | callClassMethod className name receiver arguments =>
          simp only [errand, performRunning, performClass, callClassMethod]
          cases world.engine.registry.idOf? className with
          | none => rfl
          | some classId => exact undertake_calling _ _ _ _
      | _ => rfl
  | bridge command =>
      simp only [errand, performRunning, performBridge]
      cases command with
      | describe name | enter name _ _ _ | finalize name _ | isBound name _ =>
          exact undertake_at_bridge fun _ => rfl
      | _ => rfl
  | reference command => cases command <;> rfl
  | state command => cases command <;> rfl
  | shutDown => rfl

theorem perform_errand {command : Command} (running : world.engine.running = true) :
    world.perform read command = world.undertake (world.errand read command) := by
  rw [undertake_errand]
  simp [perform, running]

end Errands

def Offers (world : World) (function : NativeFunction) : Prop :=
  ∃ classId record, world.engine.registry.record? classId = some record ∧
    (record.constructor = function ∨ ∃ name, record.methods.find? name = some function)

theorem offers_constructor {world : World} {name : String} {function : NativeFunction}
    (found : (world.engine.registry.find? name).map ClassRecord.constructor = some function) :
    world.Offers function := by
  obtain ⟨record, reached, rfl⟩ := Option.map_eq_some_iff.1 found
  obtain ⟨classId, -, held⟩ := Option.bind_eq_some_iff.1 reached
  exact ⟨classId, record, held, .inl rfl⟩

theorem offers_method {world : World} {classId : ClassId} {name : String}
    {function : NativeFunction} (found : world.method? classId name = some function) :
    world.Offers function := by
  obtain ⟨record, held, method⟩ := Option.bind_eq_some_iff.1 found
  exact ⟨classId, record, held, .inr ⟨name, method⟩⟩

/-- The account of a command and its errand. Whatever an errand acts on is an operand of the
command, and what it calls belongs to a class. An answer gives nothing away, and the client
does not come to own what is in it. -/
inductive Account (world : World) (read : Operand → Value) : Command → Errand → Prop
  | answer {command : Command} {reply : Reply} (keeps : command.given read = [])
      (lends : reply.values = [] ∨ command.owning = false)
      (known : ∀ value ∈ reply.values, value ∈ command.made ∨
        ∃ operand ∈ command.operands, read operand = value ∨
          world.prototype? (read operand) = some value) :
      Account world read command (.answer reply)
  | forget (register : String) :
      Account world read (.value (.forget register)) (.forget register)
  | create : Account world read (.object .create) (.allocate .plain)
  | createFunction (name : String) :
      Account world read (.object (.createFunction name)) (.allocate (.function name))
  | setProperty (object : Operand) (key : String) (value : Operand) :
      Account world read (.object (.setProperty object key value))
        (.setProperty (read object) key (read value))
  | getProperty (object : Operand) (key : String) :
      Account world read (.object (.getProperty object key)) (.getProperty (read object) key)
  | duplicate (value : Operand) :
      Account world read (.object (.duplicate value)) (.duplicate (read value))
  | release (value : Operand) :
      Account world read (.object (.release value)) (.release (read value))
  | collect : Account world read (.object .collect) .collect
  | finalizeNow (value : Operand) :
      Account world read (.object (.finalizeNow value)) (.finalizeNow (read value))
  | setSlot (value : Operand) (classId : ClassId) (key : Option Key) :
      Account world read (.object (.setSlot value classId key))
        (.setSlot (read value) classId key)
  | reserve : Account world read (.classes .reserve) .reserve
  | classPrototype (classId : ClassId) :
      Account world read (.classes (.prototype classId)) (.classPrototype classId)
  | instantiate (proto : Operand) (classId : ClassId) :
      Account world read (.classes (.instantiate proto classId))
        (.instantiate (read proto) classId)
  | call {command : ClassCommand} {function : NativeFunction} {receiver : Value}
      {operands : List Operand} (owns : (Command.classes command).owning = true)
      (offers : world.Offers function)
      (receives : receiver = .undefined ∨ ∃ operand ∈ command.operands, read operand = receiver)
      (listed : ∀ operand ∈ operands, operand ∈ command.operands) :
      Account world read (.classes command) (.call function receiver (operands.map read))
  | install (name : String) (config : Config) :
      Account world read (.bridge (.install name config)) (.install name config)
  | createBridge (name : String) (classId : ClassId) (config : Config) :
      Account world read (.bridge (.create name classId config))
        (.createBridge name classId config)
  | dropBridge (name : String) : Account world read (.bridge (.drop name)) (.dropBridge name)
  | enter {name : String} {bridge : BridgeId} (entry : Entry) (receiver : Operand)
      (operands : List Operand) (named : world.client.bridges.find? name = some bridge) :
      Account world read (.bridge (.enter name entry receiver operands))
        (.enter bridge entry (read receiver) (operands.map read))
  | finalize {name : String} {bridge : BridgeId} (handle : Operand)
      (named : world.client.bridges.find? name = some bridge) :
      Account world read (.bridge (.finalize name handle)) (.finalize bridge (read handle))
  | acquire (name : String) (value : Operand) :
      Account world read (.reference (.acquire name value)) (.acquire name (read value))
  | dropReference (name : String) :
      Account world read (.reference (.drop name)) (.dropReference name)
  | createState (name : String) (link : Option String) :
      Account world read (.state (.create name link)) (.createState name link)
  | setCallback (name : String) (callback : Operand) :
      Account world read (.state (.setCallback name callback)) (.setCallback name (read callback))
  | clearState (name : String) (keep : Option String) :
      Account world read (.state (.clear name keep)) (.clearState name keep)
  | dropState (name : String) : Account world read (.state (.drop name)) (.dropState name)
  | shutDown : Account world read .shutDown .shutDown

section Accounts

variable {world : World} {read : Operand → Value}

theorem Account.silent {command : Command} {reply : Reply} (keeps : command.given read = [])
    (silent : reply.values = []) : Account world read command (.answer reply) :=
  .answer keeps (.inl silent) (by simp [silent])

theorem account_calling {command : ClassCommand} {function : Option NativeFunction}
    {receiver : Value} {operands : List Operand} (missing : Exception)
    (owns : (Command.classes command).owning = true)
    (offers : ∀ found, function = some found → world.Offers found)
    (receives : receiver = .undefined ∨ ∃ operand ∈ command.operands, read operand = receiver)
    (listed : ∀ operand ∈ operands, operand ∈ command.operands) :
    Account world read (.classes command)
      (.calling function missing receiver (operands.map read)) := by
  cases function with
  | none => exact .silent rfl rfl
  | some found => exact .call owns (offers found rfl) receives listed

theorem account_at_bridge {command : BridgeCommand} (name : String) {errand : BridgeId → Errand}
    (account : ∀ id, world.client.bridges.find? name = some id →
      Account world read (.bridge command) (errand id)) :
    Account world read (.bridge command) (world.atBridge name errand) := by
  unfold atBridge
  cases named : world.client.bridges.find? name with
  | none => exact .silent rfl rfl
  | some id => exact account id named

theorem account_object (command : ObjectCommand) :
    Account world read (.object command) (world.errand read (.object command)) := by
  cases command with
  | create => exact .create
  | createFunction name => exact .createFunction name
  | setProperty object key value => exact .setProperty object key value
  | getProperty object key => exact .getProperty object key
  | prototype value =>
      refine .answer rfl (.inr rfl) ?_
      intro proto member
      refine .inr ⟨value, List.mem_singleton_self value, .inr ?_⟩
      cases found : world.prototype? (read value) with
      | none => simp [found, Reply.values] at member
      | some held =>
          simp only [found, Option.elim_some, Reply.values, List.mem_singleton] at member
          rw [member]
  | duplicate value => exact .duplicate value
  | release value => exact .release value
  | collect => exact .collect
  | finalizeNow value => exact .finalizeNow value
  | setSlot value classId key => exact .setSlot value classId key
  | toInt32 value =>
      simp only [errand]
      split <;> exact .silent rfl rfl
  | make value =>
      refine .answer rfl (.inr rfl) ?_
      exact fun other member => .inl member
  | _ => exact .silent rfl rfl

theorem account_class (command : ClassCommand) :
    Account world read (.classes command) (world.errand read (.classes command)) := by
  cases command with
  | find name => exact .silent rfl rfl
  | reserve => exact .reserve
  | prototype classId => exact .classPrototype classId
  | instantiate proto classId => exact .instantiate proto classId
  | construct name target operands =>
      refine account_calling _ rfl (fun _ => offers_constructor) ?_ ?_
      · cases target with
        | none => exact .inl rfl
        | some target => exact .inr ⟨target, by simp [ClassCommand.operands], rfl⟩
      · simp +contextual [ClassCommand.operands]
  | callMethod receiver name operands =>
      refine account_calling _ rfl ?_ ?_ ?_
      · intro function found
        obtain ⟨classId, -, method⟩ := Option.bind_eq_some_iff.1 found
        exact offers_method method
      · exact .inr ⟨receiver, by simp [ClassCommand.operands], rfl⟩
      · simp +contextual [ClassCommand.operands]
  | callClassMethod className name receiver operands =>
      simp only [errand]
      split
      · refine account_calling _ rfl (fun _ => offers_method) ?_ ?_
        · exact .inr ⟨receiver, by simp [ClassCommand.operands], rfl⟩
        · simp +contextual [ClassCommand.operands]
      · exact .silent rfl rfl

theorem account_bridge (command : BridgeCommand) :
    Account world read (.bridge command) (world.errand read (.bridge command)) := by
  cases command with
  | install name config => exact .install name config
  | create name classId config => exact .createBridge name classId config
  | drop name => exact .dropBridge name
  | describe name =>
      apply account_at_bridge
      intro id _
      apply Account.silent rfl
      cases world.bridge? id <;> rfl
  | enter name entry receiver operands =>
      exact account_at_bridge name fun _ => .enter entry receiver operands
  | finalize name handle => exact account_at_bridge name fun _ => .finalize handle
  | isBound name handle => exact account_at_bridge name fun _ _ => .silent rfl rfl

/-- Every command has its account. -/
theorem account (world : World) (read : Operand → Value) (command : Command) :
    Account world read command (world.errand read command) := by
  cases command with
  | value command =>
      cases command with
      | read value =>
          refine .answer rfl (.inr rfl) ?_
          intro other member
          cases List.mem_singleton.1 member
          exact .inr ⟨value, List.mem_singleton_self value, .inl rfl⟩
      | forget register => exact .forget register
      | _ => exact .silent rfl rfl
  | object command => exact account_object command
  | classes command => exact account_class command
  | bridge command => exact account_bridge command
  | reference command =>
      cases command with
      | acquire name value => exact .acquire name value
      | drop name => exact .dropReference name
      | read name | describe name =>
          apply Account.silent rfl
          cases world.client.references.find? name <;> rfl
  | state command =>
      cases command with
      | create name link => exact .createState name link
      | setCallback name callback => exact .setCallback name callback
      | clear name keep => exact .clearState name keep
      | drop name => exact .dropState name
      | describe name =>
          apply Account.silent rfl
          cases world.client.states.find? name <;> rfl
  | shutDown => exact .shutDown

end Accounts

end World

end ScriptSignal
