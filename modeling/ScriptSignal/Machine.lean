import ScriptSignal.Perform
import ScriptSignal.Transcript

/-!
# Running scripts

A machine is a world with its agenda and the frames of the bodies under way. One step
takes the first task off the agenda, does it, and puts what it leaves before the rest.
Between two steps of the client the agenda is empty.
-/

namespace ScriptSignal

set_option autoImplicit false

/-- What a running body sees. Its step under way has a register that keeps the answer,
if that is a value, and the answer once it is there. -/
structure Frame where
  receiver : Value
  arguments : List Value
  keep : Option String
  reply : Reply

namespace Frame

def outermost : Frame := ⟨.undefined, [], none, .nothing⟩

def read (frame : Frame) (registers : NameMap Value) : Operand → Value
  | .literal value => value
  | .register name => (registers.find? name).getD .undefined
  | .self => frame.receiver
  | .argument index => (frame.arguments[index]?).getD .undefined
  | .argumentCount => .int (Int32.ofInt frame.arguments.length)

end Frame

structure Machine where
  world : World
  agenda : List Task
  frame : Frame
  /-- The frames of the callers, the nearest first. -/
  callers : List Frame
  /-- How many repetitions are under way, which list nothing. -/
  muted : Nat
  records : Array Record
  /-- How many events the records have. -/
  reported : Nat
  limit : Nat

namespace Machine

def start (setting : Setting) : Machine where
  world := .start setting
  agenda := []
  frame := .outermost
  callers := []
  muted := 0
  records := #[]
  reported := 0
  limit := setting.limit

def depth (machine : Machine) : Nat := machine.callers.length

def read (machine : Machine) : Operand → Value :=
  machine.frame.read machine.world.client.registers

/-- Lets an operation act on the world, and puts what it leaves before all else. -/
def act (machine : Machine) (operation : World → Outcome) : Machine :=
  match machine with
  | ⟨world, agenda, frame, callers, muted, records, reported, limit⟩ =>
      let (world, tasks) := operation world
      ⟨world, tasks ++ agenda, frame, callers, muted, records, reported, limit⟩

def schedule (machine : Machine) (tasks : List Task) : Machine :=
  { machine with agenda := tasks ++ machine.agenda }

/-- Answers the step under way. A value is kept at once, before anything that the step
still holds is let go. -/
def answer (machine : Machine) (reply : Reply) : Machine :=
  let machine := { machine with frame.reply := reply }
  match machine.frame.keep, reply with
  | some register, .value value =>
      { machine with world := machine.world.setRegister register value }
  | _, _ => machine

def begin (machine : Machine) (label : String) (keep : Option String) : Machine :=
  { machine with frame.keep := keep }.schedule [.finish label]

/-- Past the limit a body does nothing and returns undefined. -/
def enter (machine : Machine) (body : Body) (receiver : Value) (arguments : List Value)
    (purpose : Purpose) : Machine :=
  if machine.depth < machine.limit then
    { machine with
      frame := ⟨receiver, arguments, none, .nothing⟩
      callers := machine.frame :: machine.callers }.schedule
        (body.steps.map Task.perform ++ [Task.leave body purpose])
  else
    match purpose with
    | .call => machine.answer (.value .undefined)
    | .finalize => machine

def result (machine : Machine) (body : Body) : Reply :=
  match body.thrown with
  | some exception => .raised exception
  | none => .value (machine.read body.returned)

def leave (machine : Machine) (body : Body) (purpose : Purpose) : Machine :=
  match machine.callers with
  | [] => machine
  | caller :: callers =>
      let returned := { machine with frame := caller, callers }
      match purpose with
      | .call => returned.answer (machine.result body)
      | .finalize => returned

/-- An engine cannot be torn down from within a body. -/
def isAllowed (machine : Machine) : Command → Bool
  | .shutDown => machine.depth = 0
  | _ => true

def perform (machine : Machine) : Step → Machine
  | .act label command keep =>
      let read := machine.read
      let machine := machine.begin label keep
      if machine.isAllowed command then machine.act fun world => world.perform read command
      else machine.schedule [.answer (.refused .badStep)]
  | .define label classId name constructor methods finalizer =>
      (machine.begin label none).act fun world =>
        world.defineScripted classId name constructor methods finalizer
  | .iterate label times steps =>
      { machine with muted := machine.muted + 1 }.begin label none |>.schedule
        [.iterate times steps, .answer .nothing]
  | .unknown label => (machine.begin label none).schedule [.answer (.refused .badStep)]

def record (machine : Machine) (label : String) : Machine :=
  if machine.muted = 0 then
    let events := machine.world.events
    let record :=
      machine.world.record label machine.frame.reply machine.depth
        (events.extract machine.reported events.size).toList
    { machine with records := machine.records.push record, reported := events.size }
  else machine

def carryOut (machine : Machine) : Task → Machine
  | .release value => machine.act fun world => world.release value
  | .drop held => machine.act fun world => world.dropReference held
  | .reclaim id => machine.act fun world => world.reclaim id
  | .remove id => machine.act fun world => world.removeObject id
  | .drain count => machine.act fun world => world.drain count
  | .reportCollection finalizedBefore =>
      machine.act fun world => world.reportCollection finalizedBefore
  | .report event => machine.act fun world => (world.emit event, [])
  | .bind bridge route handle link =>
      machine.act fun world => world.bindSignal bridge route handle link
  | .endCall bridge => machine.act fun world => world.endCall bridge
  | .settle bridge => machine.act fun world => world.settleBridge bridge
  | .answer reply => machine.answer reply
  | .enter body receiver arguments purpose => machine.enter body receiver arguments purpose
  | .leave body purpose => machine.leave body purpose
  | .perform step => machine.perform step
  | .finish label => machine.record label
  | .iterate 0 _ => { machine with muted := machine.muted - 1 }
  | .iterate (times + 1) steps =>
      machine.schedule (steps.map Task.perform ++ [Task.iterate times steps])

def step (machine : Machine) : Machine :=
  match machine.agenda with
  | [] => machine
  | task :: rest => { machine with agenda := rest }.carryOut task

/-- Runs until nothing is left to do, or the fuel is spent. -/
def run : Nat → Machine → Machine
  | 0, machine => machine
  | fuel + 1, machine => if machine.agenda.isEmpty then machine else run fuel machine.step

def submit (machine : Machine) (step : Step) : Machine :=
  { machine with agenda := machine.agenda ++ [.perform step] }

def runAll (fuel : Nat) (machine : Machine) (steps : List Step) : Machine :=
  steps.foldl (fun machine step => (machine.submit step).run fuel) machine

end Machine

end ScriptSignal
