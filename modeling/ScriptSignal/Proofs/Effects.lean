import ScriptSignal.Proofs.Errands
import ScriptSignal.Proofs.Operations
import ScriptSignal.Proofs.Slab

/-!
# The effects of commands

What is more than small changes is named here: a state is written, a Signal is finalized,
a bridge is taken down, or the engine ends. A construction stops short of the state of its
handle. Every command has one of these effects, apart from the one that writes a slot.
-/

namespace ScriptSignal

set_option autoImplicit false

/-- An errand that enters no Signal, runs no finalizer, writes no slot and ends nothing. -/
def Errand.Slight : Errand → Prop
  | .finalizeNow _ | .setSlot _ _ _ | .call _ _ _ | .enter _ _ _ _ | .finalize _ _
  | .shutDown => False
  | _ => True

theorem Reply.within_of_values {size : Nat} {reply : Reply} (known : AllWithin size reply.values) :
    reply.Within size := by
  cases reply with
  | value kept => exact known kept (List.mem_singleton_self kept)
  | _ => trivial

namespace World

theorem Change.state {before after : World} (change : Change before after) {id : BridgeId}
    {key : Key} {state : SignalState} (found : before.state? id key = some state) :
    after.state? id key = some state := by
  unfold state? at found ⊢
  rcases change.bridges id with same | ⟨missing, -⟩
  · cases reached : before.bridge? id with
    | none => simp [reached] at found
    | some bridge =>
        rw [reached, Option.map_some] at same
        obtain ⟨later, here, states⟩ := Option.map_eq_some_iff.1 same
        simpa [here, states, reached] using found
  · simp [missing] at found

theorem Changes.state {before after : World} (changes : Changes before after) {id : BridgeId}
    {key : Key} {state : SignalState} (found : before.state? id key = some state) :
    after.state? id key = some state := by
  induction changes with
  | refl => exact found
  | tail _ change induction => exact change.state induction

inductive Effect (before : World) : World → Prop
  | changes {after : World} (changes : Changes before after) : Effect before after
  | write {world after : World} {id : BridgeId} {key : Key} {old : SignalState}
      (new : SignalState) (first : Changes before world)
      (found : world.state? id key = some old)
      (last : Changes (world.modifyStates id fun states => states.set key new) after) :
      Effect before after
  | finalize {world : World} (first : Changes before world) (id : BridgeId) (handle : Value) :
      Effect before (world.finalizeSignal id handle).1
  | settle {world : World} (first : Changes before world) (id : BridgeId) :
      Effect before (world.settleBridge id).1
  | stop {after : World} (stopped : after.engine.running = false) : Effect before after

theorem Effect.of_changes {before world after : World} (first : Changes before world)
    (effect : Effect world after) : Effect before after := by
  cases effect with
  | changes changes => exact .changes (first.trans changes)
  | write new second found last => exact .write new (first.trans second) found last
  | finalize second id handle => exact .finalize (first.trans second) id handle
  | settle second id => exact .settle (first.trans second) id
  | stop stopped => exact .stop stopped

end World

/-- An outcome that leaves ordinary work. After the end of the engine no handle is known. -/
structure Outcome.Regular (before : World) (outcome : Outcome) : Prop where
  effect : World.Effect before outcome.1
  ordinary : ∀ task ∈ outcome.2, task.Ordinary
  within : outcome.1.engine.running = true → ∀ task ∈ outcome.2, task.Within outcome.1.size

inductive Outcome.Lawful (before : World) : Outcome → Prop
  | regular {outcome : Outcome} (regular : outcome.Regular before) : Lawful before outcome
  /-- A construction up to its new handle, which is still without a state. -/
  | construct {world : World} {id : BridgeId} {route : Route} {proto : Value}
      {link : Option StrongRef} {classId : ClassId} {rest : List Task}
      (changes : World.Changes before world) (known : proto.Within world.size)
      (counted : ∀ object, world.object? proto = some object → 0 < object.refCount)
      (ofBridge : (world.bridge? id).map Bridge.classId = some classId)
      (defined : world.isDefined classId = true)
      (ordinary : ∀ task ∈ rest, task.Ordinary)
      (within : ∀ task ∈ rest, task.Within (world.allocateInstance proto classId).size) :
      Lawful before
        (world.allocateInstance proto classId,
          .release proto :: .bind id route world.nextValue link :: rest)

theorem Outcome.Plain.regular {before : World} {outcome : Outcome}
    (plain : outcome.Plain before) : outcome.Regular before :=
  ⟨.changes plain.changes, plain.ordinary, fun _ => plain.within⟩

theorem Outcome.Plain.lawful {before : World} {outcome : Outcome}
    (plain : outcome.Plain before) : outcome.Lawful before :=
  .regular plain.regular

theorem Outcome.Lawful.of_changes {before world : World} {outcome : Outcome}
    (first : World.Changes before world) (lawful : outcome.Lawful world) :
    outcome.Lawful before := by
  cases lawful with
  | regular regular =>
      exact .regular ⟨regular.effect.of_changes first, regular.ordinary, regular.within⟩
  | construct changes known counted ofBridge defined ordinary within =>
      exact .construct (first.trans changes) known counted ofBridge defined ordinary within

theorem Outcome.Lawful.append {before after : World} {tasks more : List Task}
    (lawful : Outcome.Lawful before (after, tasks))
    (ordinary : ∀ task ∈ more, task.Ordinary) (within : ∀ size, ∀ task ∈ more, task.Within size) :
    Outcome.Lawful before (after, tasks ++ more) := by
  cases lawful with
  | regular regular =>
      refine .regular ⟨regular.effect, ?_, ?_⟩
      · intro task member
        rcases List.mem_append.1 member with early | late
        · exact regular.ordinary task early
        · exact ordinary task late
      · intro running task member
        rcases List.mem_append.1 member with early | late
        · exact regular.within running task early
        · exact within _ task late
  | construct changes known counted ofBridge defined inner innerWithin =>
      refine .construct changes known counted ofBridge defined ?_ ?_
      · intro task member
        rcases List.mem_append.1 member with early | late
        · exact inner task early
        · exact ordinary task late
      · intro task member
        rcases List.mem_append.1 member with early | late
        · exact innerWithin task early
        · exact within _ task late

namespace World

theorem within_reply_error (route : Route) (failure : Failure) (size : Nat) :
    (route.reply (.error failure)).Within size := by
  cases route <;> trivial

theorem within_reply_ok (route : Route) {value : Value} {size : Nat}
    (known : value.Within size) : (route.reply (.ok value)).Within size := by
  cases route <;> exact known

theorem plain_failed {before after : World} (changes : Changes before after) (route : Route)
    (failure : Failure) : Outcome.Plain before (after.done (route.reply (.error failure))) :=
  plain_done changes (within_reply_error route failure _)

theorem object_duplicate {world : World} {value : Value} {object : Object}
    (found : (world.duplicate value).object? value = some object) : 0 < object.refCount := by
  cases value with
  | object id =>
      unfold duplicate at found
      cases held : world.engine.heap.get? id with
      | none =>
          simp only [held] at found
          change world.engine.heap.get? id = some object at found
          rw [held] at found
          cases found
      | some old =>
          simp only [held] at found
          change (world.engine.heap.put id _).get? id = some object at found
          rw [Heap.get_put_same held] at found
          cases found
          exact Nat.succ_pos _
  | _ => cases found

theorem class_of_bridge_of_signal_class {world : World} {id : BridgeId} {classId : ClassId}
    (found : world.signalClass? id = some classId) :
    (world.bridge? id).map Bridge.classId = some classId ∧ world.isDefined classId = true :=
  Option.filter_eq_some_iff.1 found

theorem within_of_signal_prototype {world : World} (grounded : world.Grounded) {id : BridgeId}
    {target proto : Value} (found : world.signalPrototype? id target = .ok proto) :
    proto.Within world.size := by
  unfold signalPrototype? at found
  split at found
  · split at found
    · exact within_of_class_prototype grounded found
    · cases found
  · exact within_of_property grounded found

theorem lawful_construct_linked {world : World} (grounded : world.Grounded) (id : BridgeId)
    (route : Route) (target : Value) (link : Option StrongRef) :
    Outcome.Lawful world (world.constructLinked id route target link) := by
  unfold constructLinked
  dsimp only
  split
  · exact (plain_after .refl (by simp) (within_reply_error _ _ _)).lawful
  · rename_i proto found
    have duplicated := changes_duplicate world proto
    have known := within_of_signal_prototype grounded found
    split
    · refine (plain_after duplicated ?_ (within_reply_error _ _ _)).lawful
      intro task member
      rcases List.mem_cons.1 member with rfl | drops
      · exact .inl ⟨proto, rfl⟩
      · obtain ⟨held, -, rfl⟩ := List.mem_map.1 drops
        exact .inr (.inl ⟨held, rfl⟩)
    · rename_i classId ofClass
      obtain ⟨ofBridge, defined⟩ := class_of_bridge_of_signal_class ofClass
      exact .construct duplicated (known.mono duplicated.persists.size)
        (fun object held => object_duplicate held) ofBridge defined (by simp) (by simp)

theorem lawful_construct_signal {world : World} (grounded : world.Grounded) (id : BridgeId)
    (route : Route) (target : Value) (arguments : List Value) :
    Outcome.Lawful world (world.constructSignal id route target arguments) := by
  unfold constructSignal
  split
  · exact lawful_construct_linked grounded id route target none
  · exact lawful_construct_linked grounded id route target none
  · rename_i object
    have acquired := changes_acquire world (.object object)
    exact (lawful_construct_linked (acquired.grounded grounded) id route target _).of_changes
      acquired
  · exact (plain_failed .refl route _).lawful
  · exact (plain_failed .refl route _).lawful

theorem state_of_bound_state {world : World} {id : BridgeId} {handle : Value} {key : Key}
    {state : SignalState} (found : world.boundState id handle = .ok (key, state)) :
    world.boundKey id handle = .ok key ∧ world.state? id key = some state := by
  unfold boundState at found
  split at found
  · cases found
  · rename_i bound reached
    split at found
    · rename_i held
      cases found
      exact ⟨reached, held⟩
    · cases found

theorem bound_state_of_connectable {world : World} {id : BridgeId} {handle callback : Value}
    {key : Key} {state : SignalState}
    (found : world.connectable id handle callback = .ok (key, state)) :
    world.isFunction callback = true ∧ world.boundState id handle = .ok (key, state) ∧
      ¬((world.config id).link = .required ∧ state.link = none) ∧ state.callback = none := by
  unfold connectable at found
  split at found
  · rename_i function
    split at found
    · cases found
    · rename_i bound reached
      split at found
      · cases found
      · rename_i linked
        split at found
        · rename_i empty
          cases found
          exact ⟨function, reached, linked, empty⟩
        · cases found
  · cases found

theorem lawful_connect (world : World) (id : BridgeId) (route : Route) (handle : Value)
    (arguments : List Value) : Outcome.Lawful world (world.connect id route handle arguments) := by
  unfold connect
  split
  · rename_i callback
    split
    · exact (plain_failed .refl route _).lawful
    · rename_i key state found
      obtain ⟨-, bound, -⟩ := bound_state_of_connectable found
      have acquired := changes_acquire world callback
      have held := acquired.state (state_of_bound_state bound).2
      refine .regular
        ⟨.write (state.connected callback) acquired held (.single (.emit _ _)), ?_, ?_⟩
      · simp [done, Task.Ordinary]
      · intro _ task member
        cases List.mem_singleton.1 member
        exact Task.within_answer.2 (within_reply_ok route (by trivial))
  · exact (plain_failed .refl route _).lawful

theorem lawful_disconnect_token (world : World) (id : BridgeId) (route : Route) (handle : Value)
    (token : Int32) : Outcome.Lawful world (world.disconnectToken id route handle token) := by
  unfold disconnectToken
  split
  · exact (plain_done .refl (within_reply_ok route (by trivial))).lawful
  · split
    · exact (plain_failed .refl route _).lawful
    · rename_i key bound
      have emitted := changes_emit world (.disconnecting key token)
      dsimp only
      split
      · exact (plain_failed emitted route _).lawful
      · rename_i state held
        split
        · exact (plain_done emitted (within_reply_ok route (by trivial))).lawful
        · refine .regular ⟨.write state.cleared emitted held .refl, ?_, ?_⟩
          · simp [after, Task.Ordinary]
          · intro _ task member
            simp only [after, List.cons_append, List.nil_append, List.mem_cons,
              List.not_mem_nil, or_false] at member
            rcases member with rfl | rfl | rfl
            · trivial
            · trivial
            · exact Task.within_answer.2 (within_reply_ok route (by trivial))

theorem lawful_disconnect (world : World) (id : BridgeId) (route : Route) (handle : Value)
    (arguments : List Value) :
    Outcome.Lawful world (world.disconnect id route handle arguments) := by
  unfold disconnect
  split
  · split
    · exact lawful_disconnect_token world id route handle _
    · exact (plain_failed .refl route _).lawful
  · exact (plain_failed .refl route _).lawful

theorem plain_is_empty (world : World) (id : BridgeId) (route : Route) (handle : Value)
    (arguments : List Value) : Outcome.Plain world (world.isEmpty id route handle arguments) := by
  unfold isEmpty
  split
  · cases world.boundState id handle with
    | error failure => exact plain_failed .refl route failure
    | ok bound => exact plain_done .refl (within_reply_ok route (by trivial))
  · exact plain_failed .refl route _

theorem lawful_enter_signal {world : World} (grounded : world.Grounded) (id : BridgeId)
    (entry : Entry) (route : Route) (receiver : Value) (arguments : List Value) :
    Outcome.Lawful world (world.enterSignal id entry route receiver arguments) := by
  unfold enterSignal
  cases entry with
  | construct => exact lawful_construct_signal grounded id route receiver arguments
  | connect => exact lawful_connect world id route receiver arguments
  | disconnect => exact lawful_disconnect world id route receiver arguments
  | isEmpty => exact (plain_is_empty world id route receiver arguments).lawful
  | toString => exact (plain_done .refl (within_reply_ok route (by trivial))).lawful

theorem drops_of_finalize_signal (world : World) (id : BridgeId) (handle : Value) :
    ∀ task ∈ (world.finalizeSignal id handle).2, ∃ held, task = .drop held := by
  unfold finalizeSignal
  split
  · simp
  · dsimp only
    split
    · intro task member
      obtain ⟨held, -, rfl⟩ := List.mem_map.1 member
      exact ⟨held, rfl⟩
    · simp

theorem regular_finalize_signal {before world : World} (changes : Changes before world)
    (id : BridgeId) (handle : Value) :
    Outcome.Regular before (world.finalizeSignal id handle) := by
  refine ⟨.finalize changes id handle, ?_, ?_⟩
  · intro task member
    obtain ⟨held, rfl⟩ := drops_of_finalize_signal world id handle task member
    trivial
  · intro _ task member
    obtain ⟨held, rfl⟩ := drops_of_finalize_signal world id handle task member
    trivial

theorem within_of_class {world : World} {value : Value} {classId : ClassId}
    (found : world.classOf? value = some classId) : value.Within world.size := by
  cases value with
  | object id =>
      cases held : world.engine.heap.get? id with
      | none => simp [classOf?, object?, Value.object?, held] at found
      | some object => exact within_of_get held
  | _ => trivial

theorem regular_run_finalizer {world : World} (grounded : world.Grounded) (id : ObjectId) :
    Outcome.Regular world (world.runFinalizer id) := by
  unfold runFinalizer
  split
  · exact (plain_nothing .refl).regular
  · rename_i record found
    obtain ⟨classId, ofClass, held⟩ := Option.bind_eq_some_iff.1 found
    split
    · exact regular_finalize_signal .refl _ _
    · rename_i body finalizer
      have literals := (grounded.classes classId record held).finalizer
      rw [finalizer] at literals
      refine ⟨.changes .refl, by simp [Task.Ordinary], ?_⟩
      intro _ task member
      cases List.mem_singleton.1 member
      exact ⟨literals, within_of_class ofClass, by simp [AllWithin]⟩

theorem regular_finalize_now {world : World} (grounded : world.Grounded) (value : Value) :
    Outcome.Regular world (world.finalizeNow value) := by
  unfold finalizeNow
  split
  · exact regular_run_finalizer grounded _
  · exact (plain_nothing .refl).regular

theorem changes_begin_call (world : World) (id : BridgeId) : Changes world (world.beginCall id) :=
  .single (.activity world id (· + 1))

theorem lawful_finalize_through (world : World) (id : BridgeId) (handle : Value) :
    Outcome.Lawful world (world.finalizeThrough id handle) := by
  have regular := regular_finalize_signal (changes_begin_call world id) id handle
  refine Outcome.Lawful.append (.regular regular) ?_ ?_
  · simp [Task.Ordinary]
  · intro size task member
    simp only [List.mem_cons, List.not_mem_nil, or_false] at member
    rcases member with rfl | rfl <;> trivial

theorem lawful_enter_bridge {world : World} (grounded : world.Grounded) (id : BridgeId)
    (entry : Entry) (receiver : Value) (arguments : List Value) :
    Outcome.Lawful world (world.enterBridge id entry receiver arguments) := by
  have begun := changes_begin_call world id
  have entered := (lawful_enter_signal (begun.grounded grounded) id entry .direct receiver
    arguments).of_changes begun
  exact entered.append (by simp [Task.Ordinary]) (by simp [Task.Within])

theorem drops_of_settle_bridge (world : World) (id : BridgeId) :
    ∀ task ∈ (world.settleBridge id).2, ∃ held, task = .drop held := by
  unfold settleBridge
  split
  · simp
  · intro task member
    obtain ⟨state, -, inside⟩ := List.mem_flatMap.1 member
    obtain ⟨held, -, rfl⟩ := List.mem_map.1 inside
    exact ⟨held, rfl⟩

theorem regular_settle_bridge {before world : World} (changes : Changes before world)
    (id : BridgeId) : Outcome.Regular before (world.settleBridge id) := by
  refine ⟨.settle changes id, ?_, ?_⟩
  · intro task member
    obtain ⟨held, rfl⟩ := drops_of_settle_bridge world id task member
    trivial
  · intro _ task member
    obtain ⟨held, rfl⟩ := drops_of_settle_bridge world id task member
    trivial

theorem regular_end_call (world : World) (id : BridgeId) :
    Outcome.Regular world (world.endCall id) :=
  regular_settle_bridge (.single (.activity world id (· - 1))) id

theorem regular_shut_down (world : World) : Outcome.Regular world world.shutDown := by
  unfold shutDown
  split
  · refine ⟨.stop rfl, ?_, ?_⟩
    · intro task member
      rcases List.mem_append.1 member with settle | answer
      · obtain ⟨index, -, rfl⟩ := List.mem_map.1 settle
        trivial
      · cases List.mem_singleton.1 answer
        trivial
    · intro running
      cases running
  · exact (plain_done .refl (by trivial)).regular

theorem lawful_call {world : World} (grounded : world.Grounded) {function : NativeFunction}
    (literals : AllWithin world.size function.literals) {receiver : Value}
    {arguments : List Value} (knownReceiver : receiver.Within world.size)
    (known : AllWithin world.size arguments) :
    Outcome.Lawful world (world.call function receiver arguments) := by
  unfold call
  split
  · exact lawful_enter_signal grounded _ _ _ _ _
  · refine .regular ⟨.changes .refl, by simp [Task.Ordinary], ?_⟩
    intro _ task member
    cases List.mem_singleton.1 member
    exact ⟨literals, knownReceiver, known⟩

theorem within_of_offers {world : World} (grounded : world.Grounded) {function : NativeFunction}
    (offers : world.Offers function) : AllWithin world.size function.literals := by
  obtain ⟨classId, record, held, rfl | ⟨name, method⟩⟩ := offers
  · exact (grounded.classes classId record held).constructor
  · exact (grounded.classes classId record held).methods name function method

section Commands

variable {world : World} {read : Operand → Value} {command : Command} {errand : Errand}

theorem all_within_map {size : Nat} {operands : List Operand}
    (known : ∀ operand ∈ operands, (read operand).Within size) :
    AllWithin size (operands.map read) := by
  intro value member
  obtain ⟨operand, inList, rfl⟩ := List.mem_map.1 member
  exact known operand inList

theorem plain_forget (grounded : world.Grounded) (register : String) :
    Outcome.Plain world
      (done { world with client.registers := world.client.registers.erase register } .nothing) := by
  refine plain_done (.single (.client ?_)) trivial
  intro name value found
  by_cases same : name = register
  · subst same
    simp at found
  · rw [NameMap.find_erase_other _ same] at found
    exact grounded.registers name value found

theorem plain_allocate {kind : ObjectKind} (unbound : kind.Unbound world.engine.registry) :
    Outcome.Plain world ((world.allocate kind none).done (.value world.nextValue)) := by
  refine plain_done (.single (.allocate unbound (by simp))) ?_
  change world.engine.heap.nextId.index < _
  rw [size_allocate]
  exact Nat.lt_succ_self _

theorem within_of_prototype (grounded : world.Grounded) {value proto : Value}
    (found : world.prototype? value = some proto) : proto.Within world.size := by
  simp only [prototype?, Option.map_eq_some_iff, Option.bind_eq_some_iff] at found
  obtain ⟨id, ⟨object, held, ofObject⟩, rfl⟩ := found
  obtain ⟨place, -, reached⟩ := Option.bind_eq_some_iff.1 held
  have owned : Value.object id ∈ object.owned := by simp [Object.owned, ofObject]
  exact grounded.objects place object reached _ owned

theorem plain_undertake (grounded : world.Grounded) (account : world.Account read command errand)
    (slight : errand.Slight)
    (known : ∀ operand ∈ command.operands, (read operand).Within world.size)
    (made : AllWithin world.size command.made) :
    Outcome.Plain world (world.undertake errand) := by
  cases account with
  | answer keeps lends source =>
      refine plain_done .refl (Reply.within_of_values ?_)
      intro value member
      obtain constant | ⟨operand, listed, rfl | proto⟩ := source value member
      · exact made value constant
      · exact known operand listed
      · exact within_of_prototype grounded proto
  | forget register => exact plain_forget grounded register
  | create => exact plain_allocate (by trivial)
  | createFunction name => exact plain_allocate (by trivial)
  | setProperty object key value =>
      exact plain_set_property _ key
        (known value (by simp [Command.operands, ObjectCommand.operands]))
  | getProperty object key => exact plain_get_property grounded _ key
  | duplicate value =>
      have duplicated := changes_duplicate world (read value)
      have within := known value (List.mem_singleton_self value)
      exact plain_done duplicated (within.mono duplicated.persists.size)
  | release value => exact plain_after .refl (by simp) (by trivial)
  | collect => exact plain_collect world
  | reserve => exact plain_done (.single (.reserve world)) (by trivial)
  | classPrototype classId => exact plain_class_prototype grounded classId
  | instantiate proto classId => exact plain_instantiate world _ classId
  | install name config => exact plain_install_bridge grounded name config
  | createBridge name classId config => exact plain_create_bridge grounded name classId config
  | dropBridge name => exact plain_drop_bridge grounded name
  | acquire name value => exact plain_acquire_reference grounded name _
  | dropReference name => exact plain_drop_named_reference grounded name
  | createState name link => exact plain_create_state grounded name link
  | setCallback name callback => exact plain_set_state_callback grounded name _
  | clearState name keep => exact plain_clear_state grounded name keep
  | dropState name => exact plain_drop_state grounded name
  | finalizeNow | setSlot | call | enter | finalize | shutDown => exact slight.elim

theorem lawful_finalize_now (grounded : world.Grounded) (value : Value) :
    Outcome.Lawful world ((world.finalizeNow value).1.after (world.finalizeNow value).2 .nothing) :=
  Outcome.Lawful.append (.regular (regular_finalize_now grounded value)) (by simp [Task.Ordinary])
    (by simp [Task.Within, Reply.Within])

theorem lawful_undertake (grounded : world.Grounded)
    (account : world.Account read command errand)
    (noSlot : ∀ value classId key, command ≠ .object (.setSlot value classId key))
    (known : ∀ operand ∈ command.operands, (read operand).Within world.size)
    (made : AllWithin world.size command.made) :
    Outcome.Lawful world (world.undertake errand) := by
  by_cases slight : errand.Slight
  · exact (plain_undertake grounded account slight known made).lawful
  · cases account with
    | finalizeNow value => exact lawful_finalize_now grounded _
    | setSlot value classId key => exact absurd rfl (noSlot value classId key)
    | call owns offers receives listed =>
        refine lawful_call grounded (within_of_offers grounded offers) ?_ ?_
        · obtain rfl | ⟨operand, member, rfl⟩ := receives
          · trivial
          · exact known operand member
        · exact all_within_map fun operand member => known operand (listed operand member)
    | enter entry receiver operands named => exact lawful_enter_bridge grounded _ entry _ _
    | finalize handle named => exact lawful_finalize_through world _ _
    | shutDown => exact .regular (regular_shut_down world)
    | _ => exact absurd trivial slight

theorem lawful_perform (grounded : world.Grounded)
    (noSlot : ∀ value classId key, command ≠ .object (.setSlot value classId key))
    (known : ∀ operand ∈ command.operands, (read operand).Within world.size)
    (made : AllWithin world.size command.made) :
    Outcome.Lawful world (world.perform read command) := by
  unfold perform
  split
  · exact (plain_done .refl (by trivial)).lawful
  · rw [← undertake_errand]
    exact lawful_undertake grounded (world.account read command) noSlot known made

theorem plain_define_scripted {classId : ClassId} {name : String} {constructor : Body}
    {methods : List (String × Body)} {finalizer : Body}
    (known : AllWithin world.size
      (constructor.literals ++ Step.literalsOfMethods methods ++ finalizer.literals)) :
    Outcome.Plain world (world.defineScripted classId name constructor methods finalizer) := by
  unfold defineScripted
  dsimp only
  split
  · split
    · rename_i vacant
      refine plain_done (.single (.define vacant ?_)) trivial
      intro value member
      apply known
      simp only [ClassDefinition.literals, NativeFunction.literals, Finalizer.literals,
        List.flatMap_map, List.mem_append, List.mem_flatMap] at member ⊢
      rw [Step.mem_literals_of_methods]
      exact member
    · exact plain_done .refl trivial
  · exact plain_done .refl trivial

end Commands

theorem persists_modify_states (world : World) (id : BridgeId)
    {change : Slab SignalState → Slab SignalState}
    (grows : ∀ states, states.capacity ≤ (change states).capacity) :
    Persists world (world.modifyStates id change) :=
  persists_modify world id fun _ _ => ⟨rfl, rfl, rfl, grows _⟩

theorem persists_put (world : World) (id : ObjectId) (object : Object) :
    Persists world (world.putObject id object) :=
  ⟨rfl, rfl, Nat.le_of_eq (size_put world id object).symm, fun _ _ found => found,
    (Persists.refl world).bridges⟩

/-- Writing a slot writes one object, of which only the slot changes. On what is no instance
of the class nothing happens. -/
theorem set_slot_cases (world : World) (value : Value) (classId : ClassId) (key : Option Key) :
    world.setSlot value classId key = world ∧ world.classOf? value ≠ some classId ∨
      ∃ id object slot, value = .object id ∧ world.engine.heap.get? id = some object ∧
        object.kind = .native classId slot ∧
        world.setSlot value classId key =
          world.putObject id { object with kind := .native classId (key.map Key.toBits) } := by
  cases value with
  | object id =>
      cases found : world.engine.heap.get? id with
      | none =>
          left
          simp [setSlot, classOf?, object?, Value.object?, found]
      | some object =>
          cases native : object.kind with
          | native ofClass slot =>
              by_cases same : ofClass = classId
              · subst same
                exact .inr ⟨id, object, slot, rfl, found, native, by simp [setSlot, found, native]⟩
              · left
                simp [setSlot, classOf?, object?, Value.object?, found, native, same]
          | _ =>
              left
              simp [setSlot, classOf?, object?, Value.object?, found, native]
  | _ => exact .inl ⟨rfl, by simp [classOf?, object?, Value.object?]⟩

theorem persists_set_slot (world : World) (value : Value) (classId : ClassId)
    (key : Option Key) : Persists world (world.setSlot value classId key) := by
  rcases set_slot_cases world value classId key with
    ⟨same, -⟩ | ⟨id, object, slot, -, -, -, same⟩
  · rw [same]
    exact Persists.refl world
  · rw [same]
    exact persists_put world id _

theorem grounded_set_slot {world : World} (grounded : world.Grounded) (value : Value)
    (classId : ClassId) (key : Option Key) : (world.setSlot value classId key).Grounded := by
  rcases set_slot_cases world value classId key with
    ⟨same, -⟩ | ⟨id, object, slot, -, found, -, same⟩
  · rw [same]
    exact grounded
  · rw [same]
    exact grounded_put grounded found (grounded.objects id object found)

theorem bind_handle_cases (world : World) (id : BridgeId) (handle : Value) (key : Option Key) :
    world.bindHandle id handle key = world ∨
      ∃ bridge, world.bridge? id = some bridge ∧
        world.bindHandle id handle key = world.setSlot handle bridge.classId key := by
  unfold bindHandle
  cases found : world.bridge? id with
  | none => exact .inl rfl
  | some bridge => exact .inr ⟨bridge, rfl, rfl⟩

theorem persists_bind_handle (world : World) (id : BridgeId) (handle : Value)
    (key : Option Key) : Persists world (world.bindHandle id handle key) := by
  rcases bind_handle_cases world id handle key with same | ⟨bridge, -, same⟩
  · rw [same]
    exact Persists.refl world
  · rw [same]
    exact persists_set_slot world handle bridge.classId key

theorem grounded_bind_handle {world : World} (grounded : world.Grounded) (id : BridgeId)
    (handle : Value) (key : Option Key) : (world.bindHandle id handle key).Grounded := by
  rcases bind_handle_cases world id handle key with same | ⟨bridge, -, same⟩
  · rw [same]
    exact grounded
  · rw [same]
    exact grounded_set_slot grounded handle bridge.classId key

theorem grounded_modify_states {world : World} (grounded : world.Grounded) (id : BridgeId)
    (change : Slab SignalState → Slab SignalState) : (world.modifyStates id change).Grounded :=
  grounded_of_same grounded rfl rfl rfl rfl

theorem grounded_emit {world : World} (grounded : world.Grounded) (event : Event) :
    (world.emit event).Grounded :=
  grounded_of_same grounded rfl rfl rfl rfl

theorem persists_emit {before world : World} (persists : Persists before world) (event : Event) :
    Persists before (world.emit event) :=
  persists.trans (Change.emit world event).persists

theorem persists_finalize_signal (world : World) (id : BridgeId) (handle : Value) :
    Persists world (world.finalizeSignal id handle).1 := by
  unfold finalizeSignal
  split
  · exact persists_emit (Persists.refl world) _
  · rename_i key bound
    have unbound := persists_bind_handle world id handle none
    dsimp only
    split
    · refine persists_emit (unbound.trans (persists_modify_states _ id ?_)) _
      exact fun states => Nat.le_of_eq (Slab.capacity_erase states key).symm
    · exact persists_emit unbound _

theorem grounded_finalize_signal {world : World} (grounded : world.Grounded) (id : BridgeId)
    (handle : Value) : (world.finalizeSignal id handle).1.Grounded := by
  unfold finalizeSignal
  split
  · exact grounded_emit grounded _
  · have unbound := grounded_bind_handle grounded id handle none
    dsimp only
    split
    · exact grounded_emit (grounded_modify_states unbound id _) _
    · exact grounded_emit unbound _

theorem persists_settle_bridge (world : World) (id : BridgeId) :
    Persists world (world.settleBridge id).1 := by
  unfold settleBridge
  split
  · exact Persists.refl world
  · have cleared : Persists world (world.modifyStates id Slab.clear) :=
      persists_modify_states world id fun states => by simp [Slab.capacity, Slab.clear]
    dsimp only
    split
    · exact cleared
    · exact persists_emit cleared _

theorem grounded_settle_bridge {world : World} (grounded : world.Grounded) (id : BridgeId) :
    (world.settleBridge id).1.Grounded := by
  unfold settleBridge
  split
  · exact grounded
  · have cleared := grounded_modify_states grounded id Slab.clear
    dsimp only
    split
    · exact cleared
    · exact grounded_emit cleared _

theorem Effect.persists {before after : World} (effect : Effect before after)
    (running : after.engine.running = true) : Persists before after := by
  cases effect with
  | changes changes => exact changes.persists
  | @write world _ id key old new first found last =>
      refine first.persists.trans (Persists.trans ?_ last.persists)
      exact persists_modify_states _ id fun states =>
        Nat.le_of_eq (Slab.capacity_set states key new).symm
  | finalize first id handle => exact first.persists.trans (persists_finalize_signal _ id handle)
  | settle first id => exact first.persists.trans (persists_settle_bridge _ id)
  | stop stopped =>
      rw [stopped] at running
      cases running

theorem Effect.grounded {before after : World} (effect : Effect before after)
    (grounded : before.Grounded) (running : after.engine.running = true) : after.Grounded := by
  cases effect with
  | changes changes => exact changes.grounded grounded
  | write new first found last =>
      exact last.grounded (grounded_modify_states (first.grounded grounded) _ _)
  | finalize first id handle => exact grounded_finalize_signal (first.grounded grounded) id handle
  | settle first id => exact grounded_settle_bridge (first.grounded grounded) id
  | stop stopped =>
      rw [stopped] at running
      cases running

end World

section Lawful

variable {before : World} {outcome : Outcome}

theorem Outcome.Lawful.effect (lawful : outcome.Lawful before) :
    World.Effect before outcome.1 := by
  cases lawful with
  | regular regular => exact regular.effect
  | construct changes known counted ofBridge defined ordinary within =>
      exact .changes (changes.trans (World.changes_allocate_instance defined))

theorem Outcome.Lawful.within (lawful : outcome.Lawful before)
    (running : outcome.1.engine.running = true) :
    ∀ task ∈ outcome.2, task.Within outcome.1.size := by
  cases lawful with
  | regular regular => exact regular.within running
  | construct changes known counted ofBridge defined ordinary within =>
      intro task member
      simp only [List.mem_cons] at member
      rcases member with rfl | rfl | later
      · trivial
      · exact World.next_within_allocate_instance _ _ _
      · exact within task later

end Lawful

namespace World

theorem persists_remove_object (world : World) (id : ObjectId) :
    Persists world (world.removeObject id).1 := by
  unfold removeObject
  split
  · exact Persists.refl world
  · refine ⟨rfl, rfl, ?_, fun _ _ found => found, (Persists.refl world).bridges⟩
    simp [size, emit, Heap.remove]

theorem grounded_remove_object {world : World} (grounded : world.Grounded) (id : ObjectId) :
    (world.removeObject id).1.Grounded := by
  have persists := persists_remove_object world id
  unfold removeObject at persists ⊢
  split
  · exact grounded
  · rename_i object found
    simp only [found] at persists
    refine ⟨?_, ?_, ?_, ?_⟩
    · intro other held foundOther
      change (world.engine.heap.remove id).get? other = some held at foundOther
      by_cases same : other = id
      · subst same
        rw [Heap.get_remove_same] at foundOther
        cases foundOther
      · rw [Heap.get_remove_other _ same] at foundOther
        exact (grounded.objects other held foundOther).mono persists.size
    · intro classId record held
      exact (grounded.classes classId record held).mono persists.size
    · intro name value held
      exact (grounded.registers name value held).mono persists.size
    · intro other member
      exact Nat.lt_of_lt_of_le (grounded.waiting other member) persists.size

theorem persists_bind_signal (world : World) (id : BridgeId) (route : Route) (handle : Value)
    (link : Option StrongRef) : Persists world (world.bindSignal id route handle link).1 := by
  unfold bindSignal
  split
  · refine persists_emit (Persists.trans ?_ (persists_bind_handle _ id handle _)) _
    exact persists_modify_states world id fun states => Slab.capacity_le_insert states _
  · exact Persists.refl world

theorem grounded_bind_signal {world : World} (grounded : world.Grounded) (id : BridgeId)
    (route : Route) (handle : Value) (link : Option StrongRef) :
    (world.bindSignal id route handle link).1.Grounded := by
  unfold bindSignal
  split
  · exact grounded_emit (grounded_bind_handle (grounded_modify_states grounded id _) id _ _) _
  · exact grounded

theorem within_of_bind_signal {world : World} {id : BridgeId} {route : Route} {handle : Value}
    {link : Option StrongRef} (known : handle.Within world.size) :
    ∀ task ∈ (world.bindSignal id route handle link).2,
      task.Ordinary ∧ task.Within (world.bindSignal id route handle link).1.size := by
  have persists := persists_bind_signal world id route handle link
  unfold bindSignal at persists ⊢
  intro task member
  cases found : (world.bridge? id).map fun bridge => bridge.states.nextKey with
  | none =>
      simp only [found] at member
      rcases List.mem_append.1 member with drop | answer
      · obtain ⟨held, -, rfl⟩ := List.mem_map.1 drop
        exact ⟨trivial, trivial⟩
      · cases List.mem_singleton.1 answer
        exact ⟨trivial, trivial⟩
  | some key =>
      simp only [found] at persists member ⊢
      cases List.mem_singleton.1 member
      exact ⟨trivial, Task.within_answer.2 (within_reply_ok route (known.mono persists.size))⟩

end World

end ScriptSignal
