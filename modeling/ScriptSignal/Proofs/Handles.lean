import ScriptSignal.Machine

/-!
# Handles are given out, not made up

A script gets at an object by a handle that the engine gave out. What a script says
itself are its literals, and a client can only write down handles that it was given. This
module names the handles that occur in scripts, tasks and frames, and the runs of a
machine under a client that knows no handle before its object was allocated.
-/

namespace ScriptSignal

set_option autoImplicit false

def Operand.literals : Operand → List Value
  | .literal value => [value]
  | _ => []

def ValueCommand.operands : ValueCommand → List Operand
  | .read value | .inspect value => [value]
  | .forget _ => []
  | .same left right => [left, right]

def ObjectCommand.operands : ObjectCommand → List Operand
  | .create | .createFunction _ | .collect | .make _ | .throw _ => []
  | .setProperty object _ value => [object, value]
  | .getProperty value _ | .prototype value | .functionName value | .classOf value
  | .duplicate value | .release value | .alive value | .finalizeNow value
  | .setSlot value _ _ | .getSlot value _ | .kind value | .toInt32 value => [value]

def ClassCommand.operands : ClassCommand → List Operand
  | .find _ | .reserve | .prototype _ => []
  | .instantiate proto _ => [proto]
  | .construct _ target arguments => target.toList ++ arguments
  | .callMethod receiver _ arguments => receiver :: arguments
  | .callClassMethod _ _ receiver arguments => receiver :: arguments

def BridgeCommand.operands : BridgeCommand → List Operand
  | .enter _ _ receiver arguments => receiver :: arguments
  | .finalize _ handle | .isBound _ handle => [handle]
  | _ => []

def ReferenceCommand.operands : ReferenceCommand → List Operand
  | .acquire _ value => [value]
  | _ => []

def StateCommand.operands : StateCommand → List Operand
  | .setCallback _ callback => [callback]
  | _ => []

def Command.operands : Command → List Operand
  | .value command => command.operands
  | .object command => command.operands
  | .classes command => command.operands
  | .bridge command => command.operands
  | .reference command => command.operands
  | .state command => command.operands
  | .shutDown => []

def Command.made : Command → List Value
  | .object (.make constant) => [constant]
  | _ => []

def Command.literals (command : Command) : List Value :=
  command.operands.flatMap Operand.literals ++ command.made

mutual

def Step.literals : Step → List Value
  | .act _ command _ => command.literals
  | .define _ _ _ constructor methods finalizer =>
      constructor.literals ++ Step.literalsOfMethods methods ++ finalizer.literals
  | .iterate _ _ steps => Step.literalsOfAll steps
  | .unknown _ => []

def Step.literalsOfAll : List Step → List Value
  | [] => []
  | step :: rest => step.literals ++ Step.literalsOfAll rest

def Step.literalsOfMethods : List (String × Body) → List Value
  | [] => []
  | (_, body) :: rest => body.literals ++ Step.literalsOfMethods rest

def Body.literals : Body → List Value
  | .mk steps returned _ => Step.literalsOfAll steps ++ returned.literals

end

theorem Step.mem_literals_of_all {steps : List Step} {value : Value} :
    value ∈ Step.literalsOfAll steps ↔ ∃ step ∈ steps, value ∈ step.literals := by
  induction steps with
  | nil => simp [Step.literalsOfAll]
  | cons step rest induction => simp [Step.literalsOfAll, induction]

theorem Step.mem_literals_of_methods {methods : List (String × Body)} {value : Value} :
    value ∈ Step.literalsOfMethods methods ↔ ∃ method ∈ methods, value ∈ method.2.literals := by
  induction methods with
  | nil => simp [Step.literalsOfMethods]
  | cons method rest induction => simp [Step.literalsOfMethods, induction]

def NativeFunction.literals : NativeFunction → List Value
  | .signal _ _ => []
  | .script body => body.literals

def Finalizer.literals : Finalizer → List Value
  | .signal _ => []
  | .script body => body.literals

/-- A handle of one of the first so many objects, or no handle at all. -/
def Value.Within (size : Nat) : Value → Prop
  | .object id => id.index < size
  | _ => True

theorem Value.Within.mono {value : Value} {size larger : Nat} (within : value.Within size)
    (grows : size ≤ larger) : value.Within larger := by
  cases value with
  | object id => exact Nat.lt_of_lt_of_le within grows
  | _ => trivial

def AllWithin (size : Nat) (values : List Value) : Prop := ∀ value ∈ values, value.Within size

theorem AllWithin.mono {values : List Value} {size larger : Nat} (within : AllWithin size values)
    (grows : size ≤ larger) : AllWithin larger values :=
  fun value member => (within value member).mono grows

theorem all_within_append {size : Nat} {left right : List Value} :
    AllWithin size (left ++ right) ↔ AllWithin size left ∧ AllWithin size right := by
  simp only [AllWithin, List.mem_append]
  constructor
  · intro within
    exact ⟨fun value member => within value (.inl member),
      fun value member => within value (.inr member)⟩
  · rintro ⟨first, second⟩ value (member | member)
    · exact first value member
    · exact second value member

structure ClassRecord.Within (size : Nat) (record : ClassRecord) : Prop where
  proto : record.proto.index < size
  constructor : AllWithin size record.constructor.literals
  methods : ∀ name function, record.methods.find? name = some function →
    AllWithin size function.literals
  finalizer : AllWithin size record.finalizer.literals

theorem ClassRecord.Within.mono {record : ClassRecord} {size larger : Nat}
    (within : record.Within size) (grows : size ≤ larger) : record.Within larger where
  proto := Nat.lt_of_lt_of_le within.proto grows
  constructor := within.constructor.mono grows
  methods := fun name function found => (within.methods name function found).mono grows
  finalizer := within.finalizer.mono grows

def ClassDefinition.literals (definition : ClassDefinition) : List Value :=
  definition.constructor.literals
    ++ definition.methods.flatMap (fun method => method.2.literals)
    ++ definition.finalizer.literals

/-- Only a value that a register may keep counts. -/
def Reply.Within (size : Nat) : Reply → Prop
  | .value kept => kept.Within size
  | _ => True

/-- The handles that tasks act on or hand over. References that are given back need not be
within, because giving back acts on live objects only. -/
def Task.Within (size : Nat) : Task → Prop
  | .reclaim id | .remove id => id.index < size
  | .bind _ _ handle _ => handle.Within size
  | .answer reply => reply.Within size
  | .enter body receiver arguments _ =>
      AllWithin size body.literals ∧ receiver.Within size ∧ AllWithin size arguments
  | .leave body _ => AllWithin size body.literals
  | .perform step => AllWithin size step.literals
  | .iterate _ steps => AllWithin size (Step.literalsOfAll steps)
  | _ => True

theorem Task.within_answer {size : Nat} {reply : Reply} :
    (Task.answer reply).Within size ↔ reply.Within size := Iff.rfl

theorem Task.Within.mono {task : Task} {size larger : Nat} (within : task.Within size)
    (grows : size ≤ larger) : task.Within larger := by
  cases task with
  | reclaim id | remove id => exact Nat.lt_of_lt_of_le within grows
  | bind bridge route handle link => exact Value.Within.mono within grows
  | answer reply =>
      cases reply with
      | value kept => exact Value.Within.mono within grows
      | _ => trivial
  | enter body receiver arguments purpose =>
      exact ⟨within.1.mono grows, within.2.1.mono grows, within.2.2.mono grows⟩
  | leave body purpose => exact AllWithin.mono within grows
  | perform step => exact AllWithin.mono within grows
  | iterate times steps => exact AllWithin.mono within grows
  | _ => trivial

structure Frame.Within (size : Nat) (frame : Frame) : Prop where
  receiver : frame.receiver.Within size
  arguments : AllWithin size frame.arguments

theorem Frame.Within.mono {frame : Frame} {size larger : Nat} (within : frame.Within size)
    (grows : size ≤ larger) : frame.Within larger :=
  ⟨within.receiver.mono grows, within.arguments.mono grows⟩

namespace World

/-- How many objects were ever allocated. -/
def size (world : World) : Nat := world.engine.heap.places.size

/-- All handles that can be read again are within. Of strong references this is not
asked, because what native code holds never becomes an operand. -/
structure Grounded (world : World) : Prop where
  objects : ∀ id object, world.engine.heap.get? id = some object →
    AllWithin world.size object.owned
  classes : ∀ classId record, world.engine.registry.record? classId = some record →
    record.Within world.size
  registers : ∀ name value, world.client.registers.find? name = some value →
    value.Within world.size
  waiting : ∀ id ∈ world.engine.backlog.items, id.index < world.size

theorem grounded_start (setting : Setting) : (start setting).Grounded where
  objects := by
    intro id object found
    simp [start, Engine.start, Heap.empty, Heap.get?] at found
  classes := by
    intro classId record found
    simp [start, Engine.start, Registry.empty, Registry.record?] at found
  registers := by
    intro name value found
    simp [start, Client.empty] at found
  waiting := by
    intro id member
    simp [start, Engine.start] at member

end World

end ScriptSignal
