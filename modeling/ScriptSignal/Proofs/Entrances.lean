import ScriptSignal.Proofs.Registrations

/-!
# Ways to the functions of a class

A function is reached through the class of its receiver, through the name of a class, or directly.
A call from script takes the same steps as the direct call and ends in the same machine, and what it
answers is the direct answer put in the words of script.
-/

namespace ScriptSignal

set_option autoImplicit false

def Entry.named? : String → Option Entry
  | "connect" => some .connect
  | "disconnect" => some .disconnect
  | "isEmpty" => some .isEmpty
  | "toString" => some .toString
  | _ => none

/-- The methods of an installed class are the four entry points, under their names. -/
theorem find_method_of_definition (id : BridgeId) (name : String) :
    (NameMap.ofList id.definition.methods).find? name =
      (Entry.named? name).map (.signal id) := by
  unfold Entry.named?
  split
  · rfl
  · rfl
  · rfl
  · rfl
  · rename_i connect disconnect isEmpty toString
    have listed : NameMap.ofList id.definition.methods = ⟨id.definition.methods⟩ := rfl
    rw [listed]
    simp [NameMap.find?, NameMap.findIn, BridgeId.definition, Ne.symm connect,
      Ne.symm disconnect, Ne.symm isEmpty, Ne.symm toString]

/-- What a direct call answers, and what script sees in its place. -/
inductive Translated : Reply → Reply → Prop
  | value (value : Value) : Translated (.value value) (.value value)
  | failure (failure : Failure) :
      Translated (.failed failure) (.raised ⟨failure.errorClass, failure.message⟩)

theorem translated_reply (result : Except Failure Value) :
    Translated (Route.direct.reply result) (Route.script.reply result) := by
  cases result with
  | ok value => exact .value value
  | error failure => exact .failure failure

namespace World

/-- The last task of an entry point, which alone looks at the route: it answers, or it binds a new
handle and answers that. -/
inductive Concluding (id : BridgeId) : (Route → Task) → Prop
  | answer (result : Except Failure Value) :
      Concluding id fun route => .answer (route.reply result)
  | bind (handle : Value) (link : Option StrongRef) :
      Concluding id fun route => .bind id route handle link

def Concludes (id : BridgeId) (operation : Route → Outcome) : Prop :=
  ∃ after tasks last, Concluding id last ∧ ∀ route, operation route = (after, tasks ++ [last route])

section Concludes

variable {id : BridgeId}

theorem concludes_after (world : World) (tasks : List Task) (result : Except Failure Value) :
    Concludes id fun route => world.after tasks (route.reply result) :=
  ⟨world, tasks, _, .answer result, fun _ => rfl⟩

theorem concludes_done (world : World) (result : Except Failure Value) :
    Concludes id fun route => world.done (route.reply result) :=
  concludes_after world [] result

theorem concludes_construct_linked (world : World) (target : Value) (link : Option StrongRef) :
    Concludes id fun route => world.constructLinked id route target link := by
  unfold constructLinked
  dsimp only
  split
  · exact concludes_after _ _ _
  · split
    · exact concludes_after _ _ _
    · exact ⟨_, [_], _, .bind _ link, fun _ => rfl⟩

theorem concludes_construct_signal (world : World) (target : Value) (arguments : List Value) :
    Concludes id fun route => world.constructSignal id route target arguments := by
  unfold constructSignal
  split
  · exact concludes_construct_linked world target none
  · exact concludes_construct_linked world target none
  · exact concludes_construct_linked _ target _
  · exact concludes_done world _
  · exact concludes_done world _

theorem concludes_connect (world : World) (handle : Value) (arguments : List Value) :
    Concludes id fun route => world.connect id route handle arguments := by
  unfold connect
  split
  · split <;> exact concludes_done _ _
  · exact concludes_done world _

theorem concludes_disconnect_token (world : World) (handle : Value) (token : Int32) :
    Concludes id fun route => world.disconnectToken id route handle token := by
  unfold disconnectToken
  split
  · exact concludes_done world _
  · split
    · exact concludes_done world _
    · dsimp only
      split
      · exact concludes_done _ _
      · split
        · exact concludes_done _ _
        · exact concludes_after _ _ _

theorem concludes_disconnect (world : World) (handle : Value) (arguments : List Value) :
    Concludes id fun route => world.disconnect id route handle arguments := by
  unfold disconnect
  split
  · split
    · exact concludes_disconnect_token world handle _
    · exact concludes_done world _
  · exact concludes_done world _

theorem concludes_is_empty (world : World) (handle : Value) (arguments : List Value) :
    Concludes id fun route => world.isEmpty id route handle arguments := by
  unfold isEmpty
  split <;> exact concludes_done world _

theorem concludes_enter_signal (world : World) (entry : Entry) (receiver : Value)
    (arguments : List Value) :
    Concludes id fun route => world.enterSignal id entry route receiver arguments := by
  cases entry with
  | construct => exact concludes_construct_signal world receiver arguments
  | connect => exact concludes_connect world receiver arguments
  | disconnect => exact concludes_disconnect world receiver arguments
  | isEmpty => exact concludes_is_empty world receiver arguments
  | toString => exact concludes_done world _

theorem bind_signal_of_present {world : World} (present : (world.bridge? id).isSome)
    (handle : Value) (link : Option StrongRef) :
    ∃ after : World, ∀ route : Route,
      world.bindSignal id route handle link = after.done (route.reply (.ok handle)) := by
  obtain ⟨table, found⟩ := Option.isSome_iff_exists.1 present
  unfold bindSignal
  rw [found]
  exact ⟨_, fun _ => rfl⟩

end Concludes

end World

namespace Machine

section Routes

variable {machine later ended : Machine} {rest waiting front : List Task} {id : BridgeId}

theorem Inside.installed (inside : Inside rest machine later) (attained : machine.Attained)
    (installed : machine.world.Installed id) : later.world.Installed id := by
  induction inside with
  | refl => exact installed
  | step inside shape induction =>
      exact ((inside.attained attained).kept.turn shape).installed induction

theorem answer_on_other_route (machine : Machine) (route other : Route)
    (result : Except Failure Value) :
    machine.answer (other.reply result) =
      { machine.answer (route.reply result) with frame.reply := other.reply result } := by
  obtain
    ⟨world, agenda, ⟨receiver, arguments, keep, last⟩, callers, muted, records, reported, limit⟩ :=
    machine
  cases result <;> cases route <;> cases other <;> cases keep <;> rfl

theorem Finishes.answer_on_other_route {route : Route} {result : Except Failure Value}
    (finishes : Finishes rest machine ended)
    (shape : machine.agenda = .answer (route.reply result) :: rest) (other : Route) :
    ended.frame.reply = route.reply result ∧
      Finishes rest { machine with agenda := .answer (other.reply result) :: rest }
        { ended with frame.reply := other.reply result } := by
  let bare : Machine := { machine with agenda := rest }
  have parts := parts_answer bare
  have answered : machine.step = bare.answer (route.reply result) := step_of_cons shape
  have onward := @Finishes.step _ _ _ [] _ finishes shape
  have same := onward.eq_self (answered ▸ (parts _).1)
  rw [answered] at same
  subst same
  refine ⟨by rw [(parts _).2.1], ?_⟩
  rw [← Machine.answer_on_other_route bare route other result]
  have stepped : ({ machine with agenda := .answer (other.reply result) :: rest } : Machine).step =
      bare.answer (other.reply result) := rfl
  refine Finishes.head [] rfl ?_
  rw [stepped]
  exact finishes_refl (parts _).1

theorem Finishes.conclusion_on_other_route {route : Route} {last : Route → Task}
    (finishes : Finishes rest machine ended) (shape : machine.agenda = last route :: rest)
    (concluding : World.Concluding id last) (present : (machine.world.bridge? id).isSome)
    (other : Route) :
    ∃ result, ended.frame.reply = route.reply result ∧
      Finishes rest { machine with agenda := last other :: rest }
        { ended with frame.reply := other.reply result } := by
  cases concluding with
  | answer result => exact ⟨result, finishes.answer_on_other_route shape other⟩
  | bind handle link =>
      obtain ⟨after, done⟩ := World.bind_signal_of_present present handle link
      have stepped : ∀ route : Route,
          ({ machine with agenda := .bind id route handle link :: rest } : Machine).step =
            { machine with
              world := after
              agenda := .answer (route.reply (.ok handle)) :: rest } := by
        intro route
        rw [step_of_cons rfl]
        simp only [carryOut, act, done, World.done]
        rfl
      have bound : machine.step = { machine with
          world := after
          agenda := .answer (route.reply (.ok handle)) :: rest } := by
        rw [← stepped route, ← shape]
      have onward := @Finishes.step _ _ _ [] _ finishes shape
      rw [bound] at onward
      obtain ⟨reply, finishes⟩ := onward.answer_on_other_route rfl other
      refine ⟨.ok handle, reply, Finishes.head [] rfl ?_⟩
      rw [stepped other]
      exact finishes

/-- What has a last task that concludes it ends alike on either route. -/
theorem Finishes.on_other_route {route : Route} {last : Route → Task}
    (finishes : Finishes rest machine ended) (shape : machine.agenda = front ++ last route :: rest)
    (concluding : World.Concluding id last)
    (present : ∀ middle, Finishes (last route :: rest) machine middle →
      (middle.world.bridge? id).isSome) (other : Route) :
    ∃ result, ended.frame.reply = route.reply result ∧
      Finishes rest { machine with agenda := front ++ last other :: rest }
        { ended with frame.reply := other.reply result } := by
  obtain ⟨middle, first, onward⟩ := @Finishes.split _ _ _ front [last route] finishes shape
  obtain ⟨result, reply, onward⟩ := onward.conclusion_on_other_route first.agenda concluding
    (present middle first) other
  exact ⟨result, reply,
    @Finishes.trans _ _ _ [last other] _ (first.instead shape (last other :: rest)) onward⟩

end Routes

def entering (machine : Machine) (keep : Option String) (waiting : List Task) (id : BridgeId)
    (entry : Entry) (route : Route) (receiver : Value) (arguments : List Value) : Machine :=
  { machine with
    world := (machine.world.enterSignal id entry route receiver arguments).1
    agenda := (machine.world.enterSignal id entry route receiver arguments).2 ++ waiting
    frame.keep := keep }

section Calls

variable (machine : Machine) (label : String) (keep : Option String) (rest : List Task)

/-- The command that is next ends if and only if the direct call does, and in the same machine but
for the answer, which is the direct answer put in the words of script. -/
structure MatchesDirect (id : BridgeId) (entry : Entry) (receiver : Value)
    (arguments : List Value) : Prop where
  of_direct : ∀ ended,
    Finishes (.finish label :: rest)
        (machine.entering keep (.finish label :: rest) id entry .direct receiver arguments) ended →
      ∃ reply, Translated ended.frame.reply reply ∧
        Finishes (.finish label :: rest) machine.step { ended with frame.reply := reply }
  of_script : ∀ ended, Finishes (.finish label :: rest) machine.step ended →
    ∃ reply, Translated reply ended.frame.reply ∧
      Finishes (.finish label :: rest)
        (machine.entering keep (.finish label :: rest) id entry .direct receiver arguments)
        { ended with frame.reply := reply }

def Performs (function : NativeFunction) (receiver : Value) (arguments : List Value) : Prop :=
  match function with
  | .signal id entry => machine.MatchesDirect label keep rest id entry receiver arguments
  | .script body =>
      machine.step =
        { machine with
          agenda := .enter body receiver arguments .call :: .finish label :: rest
          frame.keep := keep }

def Raises (errorClass : ErrorClass) (message : String) : Prop :=
  ∃ last, Finishes rest machine last ∧ last.frame.reply = .raised ⟨errorClass, message⟩ ∧
    last.world = machine.world

def Invokes (name : String) (method : Option NativeFunction) (receiver : Value)
    (arguments : List Value) : Prop :=
  match method with
  | some function => machine.Performs label keep rest function receiver arguments
  | none => machine.Raises rest .type (name ++ " is not a function")

/-- The command that is next calls the method of a class that a name means. If the class is a
bridge's, the bridge itself is called. -/
structure CallsMethod (classId : ClassId) (name : String) (receiver : Value)
    (arguments : List Value) : Prop where
  declared : ∃ record, machine.world.engine.registry.record? classId = some record ∧
    machine.Invokes label keep rest name (record.methods.find? name) receiver arguments
  bridge : ∀ id table, machine.world.bridge? id = some table → table.installed = true →
    table.classId = classId →
      machine.Invokes label keep rest name ((Entry.named? name).map (.signal id)) receiver
        arguments

/-- The command that is next calls the constructor of a class. If the class is a bridge's, the
bridge itself is called. -/
structure CallsConstructor (classId : ClassId) (target : Value) (arguments : List Value) :
    Prop where
  declared : ∃ record, machine.world.engine.registry.record? classId = some record ∧
    machine.Performs label keep rest record.constructor target arguments
  bridge : ∀ id table, machine.world.bridge? id = some table → table.installed = true →
    table.classId = classId →
      machine.Performs label keep rest (.signal id .construct) target arguments

end Calls

/-- What the commands that call functions do, where these classes were defined so far, the last
one first. -/
structure EntrancesAgree (machine : Machine) (log : List ClassId) : Prop where
  /-- The class of the receiver decides, and no other value than an instance has one. -/
  method : ∀ label keep rest receiver name arguments,
    machine.agenda =
        .perform (.act label (.classes (.callMethod receiver name arguments)) keep) :: rest →
      match machine.world.classOf? (machine.read receiver) with
      | some classId =>
          machine.CallsMethod label keep rest classId name (machine.read receiver)
            (arguments.map machine.read)
      | none => machine.Raises rest .type (name ++ " is not a function")
  /-- The class that was defined last under the name decides, whatever the receiver is. -/
  class_method : ∀ label keep rest className name receiver arguments,
    machine.agenda =
        .perform (.act label (.classes (.callClassMethod className name receiver arguments)) keep)
          :: rest →
      match machine.world.engine.registry.latest? log className with
      | some classId =>
          machine.CallsMethod label keep rest classId name (machine.read receiver)
            (arguments.map machine.read)
      | none => machine.Raises rest .type (className ++ " is not defined")
  /-- So it does for a constructor. Without a target the target is undefined. -/
  construct : ∀ label keep rest className target arguments,
    machine.agenda =
        .perform (.act label (.classes (.construct className target arguments)) keep) :: rest →
      match machine.world.engine.registry.latest? log className with
      | some classId =>
          machine.CallsConstructor label keep rest classId (target.elim .undefined machine.read)
            (arguments.map machine.read)
      | none => machine.Raises rest .type (className ++ " is not defined")
  untargeted : ∀ label keep rest className arguments,
    machine.agenda =
        .perform (.act label (.classes (.construct className none arguments)) keep) :: rest →
      machine.step =
        ({ machine with
          agenda := .perform (.act label (.classes (.construct className
            (some (.literal .undefined)) arguments)) keep) :: rest } : Machine).step
  /-- A client's own call is the direct call, and uses the bridge until it is over. -/
  direct : ∀ label keep rest name entry receiver arguments id,
    machine.agenda =
        .perform (.act label (.bridge (.enter name entry receiver arguments)) keep) :: rest →
      machine.world.client.bridges.find? name = some id →
        machine.step =
          ({ machine with world := machine.world.beginCall id } : Machine).entering keep
            (.endCall id :: .finish label :: rest) id entry .direct (machine.read receiver)
            (arguments.map machine.read)

section Entrances

variable {machine : Machine} {label : String} {keep : Option String} {rest : List Task}
  {command : Command} {receiver : Value} {arguments : List Value}

/-- A call from script is the direct call put in the words of script. -/
theorem matches_direct {id : BridgeId} {entry : Entry} (attained : machine.Attained)
    (installed : machine.world.Installed id)
    (shape : machine.agenda = .perform (.act label command keep) :: rest)
    (stepped : machine.step =
      machine.entering keep (.finish label :: rest) id entry .script receiver arguments) :
    machine.MatchesDirect label keep rest id entry receiver arguments := by
  let waiting := Task.finish label :: rest
  obtain ⟨after, tasks, last, concluding, same⟩ :=
    @World.concludes_enter_signal id machine.world entry receiver arguments
  have enters : ∀ route, machine.entering keep waiting id entry route receiver arguments =
      { machine with
        world := after
        agenda := tasks ++ last route :: waiting
        frame.keep := keep } := by
    intro route
    have outcome : machine.world.enterSignal id entry route receiver arguments =
      (after, tasks ++ [last route]) := same route
    simp only [entering, outcome, List.append_assoc, List.singleton_append]
  have script := stepped.trans (enters .script)
  -- The call from script is the one that is made, so the bridge is there to its end.
  have present : ∀ middle, Finishes (last .script :: waiting) machine.step middle →
      (middle.world.bridge? id).isSome := by
    intro middle first
    obtain ⟨table, found, -⟩ := first.inside.installed attained.step
      ((attained.kept.turn shape).installed installed)
    rw [found]
    rfl
  constructor
  · intro ended finishes
    rw [enters .direct] at finishes
    obtain ⟨result, reply, onward⟩ := finishes.on_other_route rfl concluding (by
      intro middle first
      have instead := first.instead rfl (last .script :: waiting)
      exact present { middle with agenda := last .script :: waiting } (script ▸ instead)) .script
    refine ⟨_, reply ▸ translated_reply result, ?_⟩
    rw [script]
    exact onward
  · intro ended finishes
    obtain ⟨result, reply, onward⟩ := finishes.on_other_route (by rw [script]) concluding present
      .direct
    refine ⟨_, reply ▸ translated_reply result, ?_⟩
    rw [enters .direct]
    rw [script] at onward
    exact onward

theorem performs_of_call {function : NativeFunction} (attained : machine.Attained)
    (served : function.Served machine.world)
    (shape : machine.agenda = .perform (.act label command keep) :: rest)
    (allowed : machine.isAllowed command = true)
    (performed : machine.world.perform machine.read command =
      machine.world.call function receiver arguments) :
    machine.Performs label keep rest function receiver arguments := by
  have stepped := step_act_eq shape allowed
  rw [performed] at stepped
  cases function with
  | signal id entry => exact matches_direct attained served shape stepped
  | script body => exact stepped

theorem raises_of_done {exception : Exception}
    (shape : machine.agenda = .perform (.act label command keep) :: rest)
    (allowed : machine.isAllowed command = true)
    (performed : machine.world.perform machine.read command =
      machine.world.done (.raised exception)) :
    machine.Raises rest exception.errorClass exception.message := by
  obtain ⟨last, finishes, world, reply⟩ := finishes_done shape allowed performed
  refine ⟨last, finishes, reply, ?_⟩
  rw [world]
  unfold Client.keeping
  split <;> simp_all [Reply.values]

theorem invokes_of_found {name : String} {method : Option NativeFunction}
    (attained : machine.Attained)
    (served : ∀ function, method = some function → function.Served machine.world)
    (shape : machine.agenda = .perform (.act label command keep) :: rest)
    (allowed : machine.isAllowed command = true)
    (performed : machine.world.perform machine.read command =
      machine.world.callFound method (.notFunction name) receiver arguments) :
    machine.Invokes label keep rest name method receiver arguments := by
  cases method with
  | some function => exact performs_of_call attained (served function rfl) shape allowed performed
  | none => exact raises_of_done shape allowed performed

theorem calls_method {classId : ClassId} {name : String} {record : ClassRecord}
    (attained : machine.Attained) (wired : machine.world.Wired)
    (defined : machine.world.engine.registry.record? classId = some record)
    (shape : machine.agenda = .perform (.act label command keep) :: rest)
    (allowed : machine.isAllowed command = true)
    (performed : machine.world.perform machine.read command =
      machine.world.callFound (machine.world.method? classId name) (.notFunction name) receiver
        arguments) :
    machine.CallsMethod label keep rest classId name receiver arguments := by
  have method : machine.world.method? classId name = record.methods.find? name := by
    simp [World.method?, defined]
  rw [method] at performed
  have served := (attained.kept.grasp.served classId record defined).methods name
  have invokes := invokes_of_found attained served shape allowed performed
  refine ⟨⟨record, defined, invokes⟩, ?_⟩
  intro id table found installed same
  rw [wired.made defined found installed same] at invokes
  rw [← find_method_of_definition]
  exact invokes

theorem calls_constructor {classId : ClassId} {record : ClassRecord}
    (attained : machine.Attained) (wired : machine.world.Wired)
    (defined : machine.world.engine.registry.record? classId = some record)
    (shape : machine.agenda = .perform (.act label command keep) :: rest)
    (allowed : machine.isAllowed command = true)
    (performed : machine.world.perform machine.read command =
      machine.world.call record.constructor receiver arguments) :
    machine.CallsConstructor label keep rest classId receiver arguments := by
  have served := (attained.kept.grasp.served classId record defined).constructor
  have performs := performs_of_call attained served shape allowed performed
  refine ⟨⟨record, defined, performs⟩, ?_⟩
  intro id table found installed same
  rw [wired.made defined found installed same] at performs
  exact performs

theorem perform_classes (running : machine.world.engine.running = true)
    (command : ClassCommand) : machine.world.perform machine.read (.classes command) =
      machine.world.performClass machine.read command := by
  simp [World.perform, running, World.performRunning]

/-- In every machine that comes about, it makes no difference to a function on which way it is
reached. -/
theorem entrances_agree_of_informed (informed : machine.Informed)
    (running : machine.world.engine.running = true) :
    (∃ log, machine.Chronicle log) ∧
      ∀ log, machine.Chronicle log → machine.EntrancesAgree log := by
  refine ⟨informed.chronicle running, fun log chronicle => ?_⟩
  have attained := informed.attained
  have wired := informed.wired running
  have chronicled := chronicle.chronicled
  have latest : ∀ {name classId},
      machine.world.engine.registry.latest? log name = some classId →
        ∃ record, machine.world.engine.registry.record? classId = some record :=
    fun found => chronicled.defined _ (List.mem_of_find?_eq_some found)
  constructor
  case method =>
    intro label keep rest receiver name arguments shape
    have performed : machine.world.perform machine.read
        (.classes (.callMethod receiver name arguments)) =
          machine.world.callMethod (machine.read receiver) name (arguments.map machine.read) :=
      perform_classes running _
    unfold World.callMethod at performed
    cases ofClass : machine.world.classOf? (machine.read receiver) with
    | some classId =>
        obtain ⟨record, defined⟩ := wired.instances _ classId ofClass
        rw [ofClass] at performed
        exact calls_method attained wired defined shape rfl performed
    | none =>
        rw [ofClass] at performed
        exact raises_of_done shape rfl performed
  case class_method =>
    intro label keep rest className name receiver arguments shape
    have performed : machine.world.perform machine.read
        (.classes (.callClassMethod className name receiver arguments)) =
          machine.world.callClassMethod className name (machine.read receiver)
            (arguments.map machine.read) := perform_classes running _
    unfold World.callClassMethod at performed
    rw [chronicled.named className] at performed
    cases named : machine.world.engine.registry.latest? log className with
    | some classId =>
        obtain ⟨record, defined⟩ := latest named
        rw [named] at performed
        exact calls_method attained wired defined shape rfl performed
    | none =>
        rw [named] at performed
        exact raises_of_done shape rfl performed
  case construct =>
    intro label keep rest className target arguments shape
    have performed : machine.world.perform machine.read
        (.classes (.construct className target arguments)) =
          machine.world.constructWithTarget className (target.elim .undefined machine.read)
            (arguments.map machine.read) := by
      rw [perform_classes running]
      cases target <;> rfl
    unfold World.constructWithTarget Registry.find? at performed
    rw [chronicled.named className] at performed
    cases named : machine.world.engine.registry.latest? log className with
    | some classId =>
        obtain ⟨record, defined⟩ := latest named
        simp only [named, Option.bind_some, defined, Option.map_some] at performed
        exact calls_constructor attained wired defined shape rfl performed
    | none =>
        rw [named] at performed
        exact raises_of_done shape rfl performed
  case untargeted =>
    intro label keep rest className arguments shape
    rw [step_act_eq shape rfl, step_act_eq rfl rfl]
    rfl
  case direct =>
    intro label keep rest name entry receiver arguments id shape named
    have performed : machine.world.perform machine.read
        (.bridge (.enter name entry receiver arguments)) =
          machine.world.enterBridge id entry (machine.read receiver)
            (arguments.map machine.read) := by
      simp [World.perform, World.performRunning, World.performBridge, World.withBridge, running,
        named]
    rw [step_act_eq shape rfl, performed]
    simp [World.enterBridge, entering]

/-- The name of a bridge's class was taken by another, and a method of a Signal is called. -/
def takenName : Machine :=
  (runAll 40 (start .immediate)
    [.act "first" (.bridge (.install "first" {})) none,
      .act "construct" (.classes (.construct "Signal" none [])) (some "signal"),
      .act "second" (.bridge (.install "second" {})) none]).submit
    (.act "call" (.classes (.callMethod (.register "signal") "isEmpty" [])) none)

theorem entrances_agree_of_taken_name :
    ((∃ log, takenName.Chronicle log) ∧
        ∀ log, takenName.Chronicle log → takenName.EntrancesAgree log) ∧
      takenName.world.classOf? (takenName.read (.register "signal")) = some ⟨0⟩ ∧
      takenName.world.engine.registry.idOf? "Signal" = some ⟨1⟩ := by
  have reached : Reachable ⟨0⟩ takenName :=
    ((Reachable.start .immediate).run_all rfl).submit rfl (Step.known_of_no_objects _ rfl)
  exact ⟨entrances_agree_of_informed reached.informed rfl, rfl, rfl⟩

end Entrances

end Machine

end ScriptSignal
