import ScriptSignal.Proofs.Binding
import ScriptSignal.Proofs.Upkeep

/-!
# What a client's request does to the accounts

A request changes the surplus of an object by what its tasks are still to give back, by what
the client is to get with the answer, and by what the client gave away. The tasks carry the
former, and the answer, once it is there, the latter.
-/

namespace ScriptSignal

set_option autoImplicit false

/-- The references that a task is to give back or to hand over. -/
def Task.carried : Task → List Value
  | .release value => [value]
  | .drop held => [held.value]
  | .bind _ _ _ link => link.toList.map StrongRef.value
  | _ => []

/-- The value in the answer as it is known once a task is on the agenda, if another one was
known before. -/
def Task.dueAfter (due : List Value) : Task → List Value
  | .answer reply => reply.values
  | .bind _ _ handle _ => [handle]
  | .reportCollection _ => []
  | _ => due

def Task.Native : Task → Prop
  | .enter _ _ _ _ | .leave _ _ | .perform _ | .iterate _ _ => False
  | _ => True

def Task.GivesBack : Task → Prop
  | .release _ | .drop _ | .settle _ | .report _ | .endCall _ => True
  | _ => False

def NativeFunction.OfBridge (function : NativeFunction) : Prop :=
  ∃ bridge entry, function = .signal bridge entry

namespace Command

/-- What a client of Signals may ask for. It writes no slots, makes no bridges without a class,
and leaves the engine up. -/
def Offered : Command → Prop
  | .object (.setSlot _ _ _) | .bridge (.create _ _ _) | .shutDown => False
  | _ => True

end Command

theorem Task.GivesBack.native {task : Task} (gives : task.GivesBack) : task.Native := by
  cases task <;> trivial

theorem Task.GivesBack.not_remove {task : Task} (gives : task.GivesBack) (id : ObjectId) :
    task ≠ .remove id := by
  rintro rfl
  exact gives

theorem Task.GivesBack.not_binds {task : Task} (gives : task.GivesBack) (id : BridgeId)
    (route : Route) (handle : Value) (link : Option StrongRef) :
    task ≠ .bind id route handle link := by
  rintro rfl
  exact gives

theorem due_of_gives_back {tasks : List Task} (gives : ∀ task ∈ tasks, task.GivesBack)
    (due : List Value) : tasks.foldl Task.dueAfter due = due := by
  induction tasks with
  | nil => rfl
  | cons task rest induction =>
      have head := gives task List.mem_cons_self
      rw [List.foldl_cons]
      have same : Task.dueAfter due task = due := by
        cases task <;> first | rfl | exact head.elim
      rw [same]
      exact induction fun other member => gives other (List.mem_cons_of_mem _ member)

/-- What an operation of a client comes to. Where the answer gives the client a reference, the
reference is due. -/
structure Outcome.Deal (trust : Prop) (before : World) (owning : Bool) (given : List Value)
    (outcome : Outcome) : Prop where
  upkeep : World.Upkeep before outcome.1
  balance : trust → ∀ id, outcome.1.surplus id + given.count (.object id) =
    before.surplus id + (outcome.2.flatMap Task.carried).count (.object id)
      + if owning then (outcome.2.foldl Task.dueAfter []).count (.object id) else 0
  /-- The answer does not depend on what was known before. -/
  answered : ∀ due, outcome.2.foldl Task.dueAfter due = outcome.2.foldl Task.dueAfter []
  native : ∀ task ∈ outcome.2, task.Native
  kept : ∀ id, .remove id ∉ outcome.2
  bridged : ∀ id route handle link, .bind id route handle link ∈ outcome.2 →
    ∃ bridge, outcome.1.bridge? id = some bridge

def World.Covered (world : World) : Prop := ∀ id, 0 ≤ world.surplus id

namespace World

section Deals

variable {trust : Prop} {before world after : World} {owning : Bool} {given : List Value}

/-- An operation that gives some references back and then answers. -/
theorem deal_after {tasks : List Task} {reply : Reply} (upkeep : Upkeep before after)
    (gives : ∀ task ∈ tasks, task.GivesBack)
    (balance : trust → ∀ id, after.surplus id + given.count (.object id) =
      before.surplus id + (tasks.flatMap Task.carried).count (.object id)
        + if owning then reply.values.count (.object id) else 0) :
    Outcome.Deal trust before owning given (after.after tasks reply) := by
  have due : ∀ early, (after.after tasks reply).2.foldl Task.dueAfter early = reply.values := by
    intro early
    simp [World.after, List.foldl_append, Task.dueAfter]
  refine ⟨upkeep, ?_, ?_, ?_, ?_, ?_⟩
  · intro trusted id
    have carried : ((after.after tasks reply).2.flatMap Task.carried) =
        tasks.flatMap Task.carried := by
      simp [World.after, Task.carried]
    rw [due, carried]
    exact balance trusted id
  · intro early
    rw [due, due]
  · intro task member
    rcases List.mem_append.1 member with early | last
    · exact (gives task early).native
    · cases List.mem_singleton.1 last
      trivial
  · intro id member
    rcases List.mem_append.1 member with early | last
    · exact (gives _ early).not_remove id rfl
    · cases List.mem_singleton.1 last
  · intro id route handle link member
    rcases List.mem_append.1 member with early | last
    · exact absurd rfl ((gives _ early).not_binds id route handle link)
    · cases List.mem_singleton.1 last

theorem deal_done {reply : Reply} (upkeep : Upkeep before after)
    (balance : trust → ∀ id, after.surplus id + given.count (.object id) =
      before.surplus id + if owning then reply.values.count (.object id) else 0) :
    Outcome.Deal trust before owning given (after.done reply) := by
  refine @deal_after trust before after owning given [] reply upkeep (by simp) ?_
  intro trusted id
  rw [balance trusted id]
  simp

theorem deal_answer {reply : Reply} (plain : reply.values = [] ∨ owning = false) :
    Outcome.Deal trust world owning [] (world.done reply) := by
  apply deal_done (.refl world)
  intro trusted id
  rcases plain with none | borrowed
  · simp [none]
  · simp [borrowed]

theorem values_error (route : Route) (failure : Failure) :
    (route.reply (.error failure)).values = [] := by
  cases route <;> rfl

theorem values_ok (route : Route) (value : Value) : (route.reply (.ok value)).values = [value] := by
  cases route <;> rfl

theorem deal_failed (route : Route) (failure : Failure) :
    Outcome.Deal trust world owning [] (world.done (route.reply (.error failure))) :=
  deal_answer (.inl (values_error route failure))

theorem alive_of_tally (covered : world.Covered) {id : ObjectId} (held : 0 < world.tally id) :
    world.isAlive (.object id) = true := by
  have positive := covered id
  unfold surplus references at positive
  unfold isAlive object?
  cases found : world.engine.heap.get? id with
  | none =>
      rw [found] at positive
      simp only [Option.elim_none] at positive
      omega
  | some object => simp [Value.object?, found]

theorem held_by_object {place : ObjectId} {object : Object}
    (found : world.engine.heap.get? place = some object) {value : Value}
    (owned : value ∈ object.owned) : value ∈ world.objectReferences := by
  have listed := List.mem_of_getElem? (place_of_get found)
  exact List.mem_flatMap.2 ⟨some object, listed, by simpa using owned⟩

theorem alive_of_owned (covered : world.Covered) {place id : ObjectId} {object : Object}
    (found : world.engine.heap.get? place = some object) (owned : .object id ∈ object.owned) :
    world.isAlive (.object id) = true := by
  apply alive_of_tally covered
  have present := List.count_pos_iff.2 (held_by_object found owned)
  unfold tally
  omega

theorem alive_of_lookup (covered : world.Covered) {key : String} {steps : Nat}
    {place id : ObjectId}
    (found : world.engine.heap.lookupWithin key steps place = some (.object id)) :
    world.isAlive (.object id) = true := by
  induction steps generalizing place with
  | zero => cases found
  | succ steps induction =>
      unfold Heap.lookupWithin at found
      split at found
      · cases found
      · rename_i object held
        split at found
        · rename_i here
          cases found
          exact alive_of_owned covered held
            (List.mem_append_left _ (NameMap.mem_values_of_find here))
        · split at found
          · exact induction found
          · cases found

theorem alive_of_property (covered : world.Covered) {target : Value} {key : String}
    {id : ObjectId} (found : world.property? target key = .ok (.object id)) :
    world.isAlive (.object id) = true := by
  cases target with
  | object place =>
      simp only [property?, Except.ok.injEq, Heap.lookup] at found
      cases reached : world.engine.heap.lookupWithin key (place.index + 1) place with
      | none =>
          rw [reached] at found
          cases found
      | some held =>
          rw [reached] at found
          cases found
          exact alive_of_lookup covered reached
  | _ => cases found

theorem alive_of_record (covered : world.Covered) {classId : ClassId} {record : ClassRecord}
    (found : world.engine.registry.record? classId = some record) :
    world.isAlive (.object record.proto) = true := by
  apply alive_of_tally covered
  have listed : some record ∈ world.engine.registry.classes.toList := by
    have reached := Option.join_eq_some_iff.1 found
    rw [← Array.getElem?_toList] at reached
    exact List.mem_of_getElem? reached
  have member : Value.object record.proto ∈ world.classReferences :=
    List.mem_flatMap.2 ⟨some record, listed, by simp⟩
  have present := List.count_pos_iff.2 member
  unfold tally
  omega

theorem alive_of_class_prototype (covered : world.Covered) {classId : ClassId} {id : ObjectId}
    (found : world.classPrototype? classId = .ok (.object id)) :
    world.isAlive (.object id) = true := by
  unfold classPrototype? at found
  split at found
  · rename_i record held
    cases found
    exact alive_of_record covered held
  · cases found

theorem deal_give {found : Except Failure Value}
    (alive : trust → ∀ id, found = .ok (.object id) → world.isAlive (.object id) = true) :
    Outcome.Deal trust world true [] (world.give found) := by
  cases found with
  | error failure => exact deal_answer (.inl rfl)
  | ok value =>
      apply deal_done (upkeep_duplicate world value)
      intro trusted id
      rw [surplus_duplicate]
      · simp [Reply.values]
      · rintro place rfl
        exact alive trusted place rfl

theorem deal_allocate (kind : ObjectKind) :
    Outcome.Deal trust world true []
      ((world.allocate kind none).done (.value world.nextValue)) := by
  apply deal_done (upkeep_allocate world kind none)
  intro trusted id
  rw [surplus_allocate]
  simp [Reply.values]

theorem deal_instantiate (proto : Value) (classId : ClassId) :
    Outcome.Deal trust world true [] (world.instantiate proto classId) := by
  unfold instantiate
  split
  · apply deal_done (upkeep_allocate_instance world proto classId)
    intro trusted id
    rw [surplus_allocate_instance]
    simp [Reply.values]
  · exact deal_answer (.inl rfl)

theorem deal_release (value : Value) :
    Outcome.Deal trust world false [value] (world.after [.release value] .nothing) := by
  apply deal_after (.refl world) (by simp [Task.GivesBack])
  intro trusted id
  simp [Task.carried]

theorem deal_set_property (target : Value) (key : String) (value : Value) :
    Outcome.Deal trust world false [value] (world.setProperty target key value) := by
  have refused : ∀ exception, Outcome.Deal trust world false [value]
      (world.after [.release value] (.raised exception)) := by
    intro exception
    apply deal_after (.refl world) (by simp [Task.GivesBack])
    intro trusted id
    simp [Task.carried]
  unfold setProperty
  split
  · rename_i place
    split
    · rename_i object found
      let changed : Object := { object with properties := object.properties.insert key value }
      have moved := NameMap.count_insert object.properties key value (fun held => [held])
      dsimp only
      apply deal_after
      · apply upkeep_put world found
        exact fun none => none
      · simp [Task.GivesBack]
      · intro trusted id
        have written := @surplus_write world id place object changed found rfl
        have counts := moved (.object id)
        have owned : changed.owned.count (.object id)
            + (object.properties.find? key).toList.count (.object id) =
              object.owned.count (.object id) + [value].count (.object id) := by
          simp only [← List.map_eq_flatMap, List.map_id'] at counts
          simp only [Object.owned, List.count_append, changed]
          omega
        have carried : ((object.properties.find? key).toList.map Task.release).flatMap Task.carried
            = (object.properties.find? key).toList := by
          cases object.properties.find? key <;> rfl
        rw [carried, written]
        simp only [Bool.false_eq_true, if_false]
        omega
    · exact refused _
  · exact refused _

theorem carried_drops (held : List StrongRef) :
    (held.map Task.drop).flatMap Task.carried = held.map StrongRef.value := by
  induction held with
  | nil => rfl
  | cons first rest induction => simp [Task.carried, induction]

theorem gives_back_drops (held : List StrongRef) :
    ∀ task ∈ held.map Task.drop, task.GivesBack := by
  intro task member
  obtain ⟨reference, -, rfl⟩ := List.mem_map.1 member
  trivial

theorem alive_of_signal_prototype (covered : world.Covered) {id : BridgeId} {target : Value}
    {place : ObjectId} (found : world.signalPrototype? id target = .ok (.object place)) :
    world.isAlive (.object place) = true := by
  unfold signalPrototype? at found
  split at found
  · split at found
    · exact alive_of_class_prototype covered found
    · cases found
  · exact alive_of_property covered found

theorem bridge_of_signal_class {id : BridgeId} {classId : ClassId}
    (found : world.signalClass? id = some classId) : ∃ bridge, world.bridge? id = some bridge := by
  obtain ⟨ofBridge, -⟩ := class_of_bridge_of_signal_class found
  obtain ⟨bridge, held, -⟩ := Option.map_eq_some_iff.1 ofBridge
  exact ⟨bridge, held⟩

/-- The link was acquired before, and is handed on to the state or dropped. -/
theorem deal_construct_linked (upkeep : Upkeep before world) (covered : trust → world.Covered)
    (link : Option StrongRef)
    (acquired : trust → ∀ id, world.surplus id =
      before.surplus id + (link.toList.map StrongRef.value).count (.object id))
    (bridge : BridgeId) (route : Route) (target : Value) :
    Outcome.Deal trust before true [] (world.constructLinked bridge route target link) := by
  have unlink : ∀ task ∈ link.toList.map Task.drop, task.GivesBack := gives_back_drops _
  unfold constructLinked
  dsimp only
  split
  · apply deal_after upkeep unlink
    intro trusted id
    rw [carried_drops, acquired trusted id, values_error]
    simp
  · rename_i proto found
    have duplicated : trust → ∀ id, (world.duplicate proto).surplus id =
        world.surplus id + [proto].count (.object id) := by
      intro trusted id
      apply surplus_duplicate
      rintro place rfl
      exact alive_of_signal_prototype (covered trusted) found
    have upkeepProto := upkeep.trans (upkeep_duplicate world proto)
    split
    · apply deal_after upkeepProto
      · intro task member
        rcases List.mem_cons.1 member with rfl | drops
        · trivial
        · exact unlink task drops
      · intro trusted id
        have carried : (Task.release proto :: link.toList.map Task.drop).flatMap Task.carried =
            [proto] ++ link.toList.map StrongRef.value := by
          rw [List.flatMap_cons, carried_drops]
          rfl
        rw [carried, duplicated trusted id, acquired trusted id, values_error, List.count_append]
        simp only [List.count_nil, if_true]
        omega
    · rename_i classId ofClass
      obtain ⟨ofBridge, exists_⟩ := bridge_of_signal_class ofClass
      have all := upkeepProto.trans (upkeep_allocate_instance (world.duplicate proto) proto classId)
      refine ⟨all, ?_, fun _ => rfl, ?_, ?_, ?_⟩
      · intro trusted id
        have allocated := @surplus_allocate_instance (world.duplicate proto) id proto classId
        have carried : [Task.release proto, .bind bridge route (world.duplicate proto).nextValue
            link].flatMap Task.carried = [proto] ++ link.toList.map StrongRef.value := by
          simp [Task.carried]
        have due : [Task.release proto, .bind bridge route (world.duplicate proto).nextValue
            link].foldl Task.dueAfter [] = [(world.duplicate proto).nextValue] := rfl
        rw [carried, due, allocated, duplicated trusted id, acquired trusted id, List.count_append]
        simp only [List.count_nil, if_true]
        omega
      · simp [Task.Native]
      · simp
      · intro other otherRoute handle otherLink member
        simp only [List.mem_cons, reduceCtorEq, Task.bind.injEq, List.not_mem_nil, or_false,
          false_or] at member
        obtain ⟨rfl, -⟩ := member
        obtain ⟨later, reached, -⟩ := (upkeep_allocate_instance (world.duplicate proto) proto
          classId).bridges other ofBridge exists_
        exact ⟨later, reached⟩

theorem covered_acquire (covered : world.Covered) {value : Value}
    (alive : ∀ place, value = .object place → world.isAlive value = true) :
    (world.acquire value).Covered := by
  intro id
  have more := surplus_duplicate id alive
  have before := covered id
  unfold acquire
  rw [surplus_emit, more]
  omega

theorem deal_construct_signal (covered : trust → world.Covered) (bridge : BridgeId) (route : Route)
    (target : Value) {arguments : List Value}
    (alive : trust → ∀ place, .object place ∈ arguments → world.isAlive (.object place) = true) :
    Outcome.Deal trust world true [] (world.constructSignal bridge route target arguments) := by
  unfold constructSignal
  split
  · exact deal_construct_linked (.refl world) covered none (by simp) bridge route target
  · exact deal_construct_linked (.refl world) covered none (by simp) bridge route target
  · rename_i place
    have here : trust → ∀ other, Value.object place = .object other →
        world.isAlive (.object place) = true := fun trusted _ _ => alive trusted place (by simp)
    apply deal_construct_linked (upkeep_acquire world _)
    · exact fun trusted => covered_acquire (covered trusted) (here trusted)
    · intro trusted id
      exact surplus_duplicate id (here trusted)
  · exact deal_failed route _
  · exact deal_failed route _

theorem is_alive_of_function {value : Value} (function : world.isFunction value = true) :
    world.isAlive value = true := by
  unfold isFunction functionName? at function
  unfold isAlive
  cases found : world.object? value with
  | none => simp [found] at function
  | some object => rfl

theorem count_value_of_not_object {value : Value} (plain : ∀ place, value ≠ .object place)
    (id : ObjectId) : [value].count (.object id) = 0 := by
  rw [List.count_singleton]
  simp [plain id]

theorem deal_connect (bridge : BridgeId) (route : Route) (handle : Value)
    (arguments : List Value) :
    Outcome.Deal trust world true [] (world.connect bridge route handle arguments) := by
  unfold connect
  split
  · rename_i callback
    split
    · exact deal_failed route _
    · rename_i key state found
      obtain ⟨function, bound, -, empty⟩ := bound_state_of_connectable found
      have held := (changes_acquire world callback).state (state_of_bound_state bound).2
      have written := (upkeep_acquire world callback).trans
        (upkeep_modify_states _ bridge
          (fun states sound => Slab.sound_set sound key (state.connected callback))
          fun states => Nat.le_of_eq (Slab.capacity_set states key _).symm)
      dsimp only
      apply deal_done (written.trans (upkeep_emit _ _))
      intro trusted id
      have moved := surplus_set_state id held (state.connected callback)
      have acquired := @surplus_duplicate world id callback
        (fun _ _ => is_alive_of_function function)
      have more : (world.acquire callback).surplus id =
          world.surplus id + [callback].count (.object id) := acquired
      have values := SignalState.values_connected empty callback
      have token : [Value.int connectionToken].count (.object id) = 0 :=
        count_value_of_not_object (by simp) id
      rw [surplus_emit, moved, more, values, List.count_append, values_ok, token]
      simp only [List.count_nil, if_true]
      omega
  · exact deal_failed route _

theorem deal_disconnect_token (bridge : BridgeId) (route : Route) (handle : Value)
    (token : Int32) :
    Outcome.Deal trust world true [] (world.disconnectToken bridge route handle token) := by
  have emitted : ∀ {event : Event} {reply : Reply}, (∀ id, reply.values.count (.object id) = 0) →
      Outcome.Deal trust world true [] ((world.emit event).done reply) := by
    intro event reply none
    apply deal_done (upkeep_emit world event)
    intro trusted id
    simp [none id]
  have flag : ∀ truth id, (route.reply (.ok (.bool truth))).values.count (.object id) = 0 := by
    intro truth id
    rw [values_ok]
    exact count_value_of_not_object (by simp) id
  unfold disconnectToken
  split
  · apply deal_done (.refl world)
    intro trusted id
    simp [flag false id]
  · split
    · exact deal_failed route _
    · rename_i key bound
      dsimp only
      split
      · apply emitted
        intro id
        simp [values_error]
      · rename_i state held
        split
        · exact emitted (flag false)
        · rename_i callback connected
          apply deal_after
          · exact (upkeep_emit world _).trans (upkeep_modify_states _ bridge
              (fun states sound => Slab.sound_set sound key state.cleared)
              fun states => Nat.le_of_eq (Slab.capacity_set states key _).symm)
          · simp [Task.GivesBack]
          · intro trusted id
            have moved := surplus_set_state id held state.cleared
            have values := SignalState.values_cleared connected
            have carried : [Task.drop callback, .report (.disconnected key)].flatMap Task.carried
                = [callback.value] := rfl
            rw [moved, carried, flag true id, values, List.count_append, surplus_emit]
            simp only [List.count_nil, if_true]
            omega

theorem deal_disconnect (bridge : BridgeId) (route : Route) (handle : Value)
    (arguments : List Value) :
    Outcome.Deal trust world true [] (world.disconnect bridge route handle arguments) := by
  unfold disconnect
  split
  · split
    · exact deal_disconnect_token bridge route handle _
    · exact deal_failed route _
  · exact deal_failed route _

theorem count_reply_map {α : Type} (route : Route) (answer : Except Failure α) {read : α → Value}
    (plain : ∀ found place, read found ≠ .object place) (id : ObjectId) :
    (route.reply (answer.map read)).values.count (.object id) = 0 := by
  cases answer with
  | error failure =>
      change (route.reply (.error failure)).values.count _ = 0
      rw [values_error, List.count_nil]
  | ok found =>
      change (route.reply (.ok (read found))).values.count _ = 0
      rw [values_ok]
      exact count_value_of_not_object (plain found) id

theorem deal_is_empty (bridge : BridgeId) (route : Route) (handle : Value)
    (arguments : List Value) :
    Outcome.Deal trust world true [] (world.isEmpty bridge route handle arguments) := by
  unfold isEmpty
  split
  · apply deal_done (.refl world)
    intro trusted id
    have none : (route.reply ((world.boundState bridge handle).map
        fun bound => .bool bound.2.callback.isNone)).values.count (.object id) = 0 :=
      count_reply_map route _ (by simp) id
    simp [none]
  · exact deal_failed route _

theorem deal_enter_signal (covered : trust → world.Covered) (bridge : BridgeId) (entry : Entry)
    (route : Route) (receiver : Value) {arguments : List Value}
    (alive : trust → ∀ place, .object place ∈ arguments → world.isAlive (.object place) = true) :
    Outcome.Deal trust world true [] (world.enterSignal bridge entry route receiver arguments) := by
  unfold enterSignal
  cases entry with
  | construct => exact deal_construct_signal covered bridge route receiver alive
  | connect => exact deal_connect bridge route receiver arguments
  | disconnect => exact deal_disconnect bridge route receiver arguments
  | isEmpty => exact deal_is_empty bridge route receiver arguments
  | toString =>
      apply deal_done (.refl world)
      intro trusted id
      rw [values_ok, count_value_of_not_object (by simp)]
      simp

theorem upkeep_finalize_signal (world : World) (bridge : BridgeId) (handle : Value) :
    Upkeep world (world.finalizeSignal bridge handle).1 := by
  rcases finalize_signal_cases world bridge handle with
    ⟨same, -⟩ | ⟨key, state, -, -, same⟩ | ⟨key, -, -, same⟩
  · rw [same]
    exact upkeep_emit world _
  · rw [same]
    have unbound := upkeep_bind_handle world bridge handle none
    have erased := upkeep_modify_states (world.bindHandle bridge handle none) bridge
      (fun states sound => Slab.sound_erase sound key)
      fun states => Nat.le_of_eq (Slab.capacity_erase states key).symm
    exact (unbound.trans erased).trans (upkeep_emit _ _)
  · rw [same]
    exact (upkeep_bind_handle world bridge handle none).trans (upkeep_emit _ _)

theorem surplus_finalize_signal (id : ObjectId) (bridge : BridgeId) (handle : Value) :
    (world.finalizeSignal bridge handle).1.surplus id =
      world.surplus id
        + ((world.finalizeSignal bridge handle).2.flatMap Task.carried).count (.object id) := by
  rcases finalize_signal_cases world bridge handle with
    ⟨same, -⟩ | ⟨key, state, -, held, same⟩ | ⟨key, -, -, same⟩
  · rw [same]
    simp
  · have reached : (world.bindHandle bridge handle none).state? bridge key = some state := by
      rw [state_bind_handle, held]
    rw [same, surplus_emit, surplus_erase_state id reached, surplus_bind_handle, carried_drops]
    rfl
  · rw [same, surplus_emit, surplus_bind_handle]
    simp

theorem gives_back_finalize_signal (bridge : BridgeId) (handle : Value) :
    ∀ task ∈ (world.finalizeSignal bridge handle).2, task.GivesBack := by
  intro task member
  obtain ⟨held, rfl⟩ := drops_of_finalize_signal world bridge handle task member
  trivial

theorem run_finalizer_cases (tidy : world.Tidy) (id : ObjectId) :
    world.runFinalizer id = (world, []) ∨
      ∃ bridge, world.runFinalizer id = world.finalizeSignal bridge (.object id) := by
  unfold runFinalizer
  split
  · exact .inl rfl
  · rename_i record found
    obtain ⟨classId, -, held⟩ := Option.bind_eq_some_iff.1 found
    obtain ⟨bridge, made⟩ := tidy.classes classId record held
    right
    rw [made]
    exact ⟨bridge, rfl⟩

theorem run_finalizer_law (tidy : world.Tidy) (place : ObjectId) :
    Upkeep world (world.runFinalizer place).1 ∧
      (∀ task ∈ (world.runFinalizer place).2, task.GivesBack) ∧
      ∀ id, (world.runFinalizer place).1.surplus id = world.surplus id
        + ((world.runFinalizer place).2.flatMap Task.carried).count (.object id) := by
  rcases run_finalizer_cases tidy place with same | ⟨bridge, same⟩
  · rw [same]
    exact ⟨.refl world, by simp, fun id => by simp⟩
  · rw [same]
    exact ⟨upkeep_finalize_signal world bridge _, gives_back_finalize_signal bridge _,
      fun id => surplus_finalize_signal id bridge _⟩

theorem deal_finalize_now (tidy : world.Tidy) (value : Value) :
    Outcome.Deal trust world false []
      ((world.finalizeNow value).1.after (world.finalizeNow value).2 .nothing) := by
  unfold finalizeNow
  split
  · rename_i id
    obtain ⟨upkeep, gives, balance⟩ := run_finalizer_law tidy id
    apply deal_after upkeep gives
    intro _ other
    rw [balance other]
    simp
  · apply deal_after (.refl world) (by simp)
    intro trusted id
    simp

theorem deal_of_same {outcome : Outcome}
    (deal : outcome.Deal trust world owning given) (upkeep : Upkeep before world)
    (same : trust → ∀ id, world.surplus id = before.surplus id) :
    outcome.Deal trust before owning given := by
  refine ⟨upkeep.trans deal.upkeep, ?_, deal.answered, deal.native, deal.kept, deal.bridged⟩
  intro trusted id
  rw [← same trusted id]
  exact deal.balance trusted id

theorem deal_append {tasks more : List Task}
    (deal : Outcome.Deal trust before owning given (after, tasks))
    (gives : ∀ task ∈ more, task.GivesBack) (nothing : more.flatMap Task.carried = []) :
    Outcome.Deal trust before owning given (after, tasks ++ more) := by
  have due : ∀ early, (tasks ++ more).foldl Task.dueAfter early =
      tasks.foldl Task.dueAfter early := by
    intro early
    rw [List.foldl_append, due_of_gives_back gives]
  refine ⟨deal.upkeep, ?_, ?_, ?_, ?_, ?_⟩
  · intro trusted id
    rw [due, List.flatMap_append, nothing, List.append_nil]
    exact deal.balance trusted id
  · intro early
    rw [due, due]
    exact deal.answered early
  · intro task member
    rcases List.mem_append.1 member with early | late
    · exact deal.native task early
    · exact (gives task late).native
  · intro id member
    rcases List.mem_append.1 member with early | late
    · exact deal.kept id early
    · exact (gives _ late).not_remove id rfl
  · intro id route handle link member
    rcases List.mem_append.1 member with early | late
    · exact deal.bridged id route handle link early
    · exact absurd rfl ((gives _ late).not_binds id route handle link)

theorem deal_enter_bridge (covered : trust → world.Covered) (bridge : BridgeId) (entry : Entry)
    (receiver : Value) {arguments : List Value}
    (alive : trust → ∀ place, .object place ∈ arguments → world.isAlive (.object place) = true) :
    Outcome.Deal trust world true [] (world.enterBridge bridge entry receiver arguments) := by
  have same : ∀ id, (world.beginCall bridge).surplus id = world.surplus id :=
    fun id => surplus_activity id bridge (· + 1)
  have begun : trust → (world.beginCall bridge).Covered := fun trusted id => by
    rw [same id]
    exact covered trusted id
  have entered := deal_enter_signal begun bridge entry .direct receiver alive
  exact deal_append (deal_of_same entered (upkeep_begin_call world bridge) fun _ => same)
    (by simp [Task.GivesBack]) rfl

theorem deal_finalize_through (bridge : BridgeId) (handle : Value) :
    Outcome.Deal trust world false [] (world.finalizeThrough bridge handle) := by
  have same : ∀ id, (world.beginCall bridge).surplus id = world.surplus id :=
    fun id => surplus_activity id bridge (· + 1)
  have finalized : Outcome.Deal trust (world.beginCall bridge) false []
      (((world.beginCall bridge).finalizeSignal bridge handle).1.after
        ((world.beginCall bridge).finalizeSignal bridge handle).2 .nothing) := by
    apply deal_after (upkeep_finalize_signal _ bridge handle)
        (gives_back_finalize_signal bridge handle)
    intro trusted id
    rw [surplus_finalize_signal]
    simp
  have ended := deal_append (deal_of_same finalized (upkeep_begin_call world bridge) fun _ => same)
    (by simp [Task.GivesBack] : ∀ task ∈ [Task.endCall bridge], task.GivesBack) rfl
  rw [List.append_assoc] at ended
  exact ended

theorem gives_back_settle (replaced : Option BridgeId) :
    ∀ task ∈ replaced.toList.map Task.settle, task.GivesBack := by
  intro task member
  obtain ⟨id, -, rfl⟩ := List.mem_map.1 member
  trivial

theorem carried_settle (replaced : Option BridgeId) :
    (replaced.toList.map Task.settle).flatMap Task.carried = [] := by
  cases replaced <;> rfl

theorem deal_store_bridge {reply : Reply} (upkeep : Upkeep before world)
    (same : trust → ∀ id, world.surplus id = before.surplus id) (name : String)
    (bridge : BridgeId) :
    Outcome.Deal trust before false [] (world.storeBridge name bridge reply) := by
  unfold storeBridge
  dsimp only
  apply deal_after
  · exact upkeep.trans (upkeep_client world rfl (fun distinct => distinct) fun distinct => distinct)
  · exact gives_back_settle _
  · intro trusted id
    rw [carried_settle, ← same trusted id]
    simp
    rfl

theorem deal_install_bridge (name : String) (config : Config) :
    Outcome.Deal trust world false [] (world.installBridge name config) := by
  unfold installBridge
  dsimp only
  split
  · apply deal_done (upkeep_reserve world)
    intro trusted id
    simp [surplus_reserve]
  · rename_i vacant
    have still : (world.reserveClass.addBridge world.engine.registry.nextId config
        true).engine.registry.checkOpen world.engine.registry.nextId = .ok () := vacant
    have installed := (upkeep_reserve world).trans (upkeep_install world.reserveClass vacant config)
    apply deal_store_bridge (installed.trans (upkeep_emit _ _))
    intro trusted id
    rw [surplus_emit, surplus_define id still, surplus_add_bridge, surplus_reserve]

theorem deal_drop_bridge (name : String) :
    Outcome.Deal trust world false [] (world.dropBridge name) := by
  unfold dropBridge
  split
  · exact deal_answer (.inr rfl)
  · apply deal_after
    · exact upkeep_client world rfl (fun distinct => distinct) fun distinct => distinct
    · simp [Task.GivesBack]
    · intro trusted id
      simp [Task.carried]
      rfl

/-- A strong reference that was acquired or detached before is kept under a name. -/
theorem deal_store_reference {reply : Reply} {held : StrongRef} (upkeep : Upkeep before world)
    (more : trust → ∀ id, world.surplus id = before.surplus id + [held.value].count (.object id))
    (name : String) :
    Outcome.Deal trust before false [] (world.storeReference name held reply) := by
  unfold storeReference
  dsimp only
  apply deal_after
  · exact upkeep.trans
      (upkeep_client world rfl (fun distinct => NameMap.distinct_insert distinct _ _)
      fun distinct => distinct)
  · exact gives_back_drops _
  · intro trusted id
    rw [surplus_insert_reference, more trusted id, carried_drops]
    simp only [List.count_nil, Bool.false_eq_true, if_false]
    omega

theorem deal_acquire_reference (name : String) {value : Value}
    (alive : trust → ∀ place, value = .object place → world.isAlive value = true) :
    Outcome.Deal trust world false [] (world.acquireReference name value) := by
  apply deal_store_reference (upkeep_acquire world value)
  intro trusted id
  exact surplus_duplicate id (alive trusted)

theorem deal_drop_named_reference (tidy : world.Tidy) (name : String) :
    Outcome.Deal trust world false [] (world.dropNamedReference name) := by
  unfold dropNamedReference
  split
  · exact deal_answer (.inr rfl)
  · rename_i held found
    apply deal_after
    · exact upkeep_client world rfl (fun distinct => NameMap.distinct_erase distinct _)
        fun distinct => distinct
    · simp [Task.GivesBack]
    · intro trusted id
      rw [surplus_erase_reference id tidy.references, found]
      simp [Task.carried]

theorem carried_states (states : List SignalState) :
    (states.flatMap fun state => state.held.map Task.drop).flatMap Task.carried =
      states.flatMap SignalState.values := by
  rw [List.flatMap_assoc]
  congr 1
  funext state
  exact carried_drops state.held

theorem gives_back_states (states : List SignalState) :
    ∀ task ∈ states.flatMap (fun state => state.held.map Task.drop), task.GivesBack := by
  intro task member
  obtain ⟨state, -, inside⟩ := List.mem_flatMap.1 member
  exact gives_back_drops _ task inside

theorem upkeep_put_state (world : World) (name : String) (state : SignalState) :
    Upkeep world (world.putState name state) :=
  upkeep_client world rfl (fun distinct => distinct) fun distinct =>
    NameMap.distinct_insert distinct _ _

theorem deal_create_state (tidy : world.Tidy) (name : String) (link : Option String) :
    Outcome.Deal trust world false [] (world.createState name link) := by
  -- the world without the reference that becomes the link
  have create : ∀ (held : Option StrongRef) (bare : World), Upkeep world bare →
      bare.client.states = world.client.states →
      (∀ id, bare.surplus id =
        world.surplus id + (held.toList.map StrongRef.value).count (.object id)) →
      Outcome.Deal trust world false [] ((bare.putState name ⟨none, held⟩).after
        ((bare.client.states.find? name).toList.flatMap fun state => state.held.map .drop)
        .nothing) := by
    intro held bare upkeep states more
    apply deal_after (upkeep.trans (upkeep_put_state bare name _)) (gives_back_states _)
    intro trusted id
    have values : (⟨none, held⟩ : SignalState).values = held.toList.map StrongRef.value := rfl
    rw [surplus_put_state, more id, carried_states, values]
    simp only [List.count_nil, Bool.false_eq_true, if_false]
    omega
  unfold createState
  cases link with
  | none => exact create none world (.refl world) rfl (by simp)
  | some link =>
      apply create (world.client.references.find? link)
        { world with client.references := world.client.references.erase link }
      · exact upkeep_client world rfl (fun distinct => NameMap.distinct_erase distinct _)
          fun distinct => distinct
      · rfl
      · exact fun id => surplus_erase_reference id tidy.references link

theorem client_acquire (value : Value) : (world.acquire value).client = world.client := by
  cases value with
  | object id =>
      simp only [acquire, duplicate]
      split <;> rfl
  | _ => rfl

theorem deal_set_state_callback (name : String) {callback : Value}
    (alive : trust → ∀ place, callback = .object place → world.isAlive callback = true) :
    Outcome.Deal trust world false [] (world.setStateCallback name callback) := by
  unfold setStateCallback
  split
  · exact deal_answer (.inr rfl)
  · rename_i state found
    split
    · rename_i empty
      apply deal_done ((upkeep_acquire world callback).trans (upkeep_put_state _ name _))
      intro trusted id
      have acquired : (world.acquire callback).surplus id =
          world.surplus id + [callback].count (.object id) := surplus_duplicate id (alive trusted)
      have stored : (world.acquire callback).client.states.find? name = some state := by
        rw [client_acquire]
        exact found
      have values := SignalState.values_connected empty callback
      rw [surplus_put_state, acquired, stored, values, List.count_append]
      simp only [Option.toList_some, List.flatMap_cons, List.flatMap_nil, List.append_nil,
        List.count_nil, Bool.false_eq_true, if_false]
      omega
    · exact deal_answer (.inr rfl)

theorem deal_clear_state (name : String) (keep : Option String) :
    Outcome.Deal trust world false [] (world.clearState name keep) := by
  unfold clearState
  split
  · exact deal_answer (.inr rfl)
  · rename_i state found
    split
    · exact deal_answer (.inr rfl)
    · rename_i callback connected
      have cleared : ∀ id, (world.putState name state.cleared).surplus id =
          world.surplus id + [callback.value].count (.object id) := by
        intro id
        have values := SignalState.values_cleared connected
        rw [surplus_put_state, found, Option.toList_some, List.flatMap_cons, List.flatMap_nil,
          List.append_nil, values, List.count_append]
        omega
      dsimp only
      split
      · exact deal_store_reference (upkeep_put_state world name _) (fun _ => cleared) _
      · apply deal_after (upkeep_put_state world name _) (by simp [Task.GivesBack])
        intro trusted id
        rw [cleared id]
        simp [Task.carried]

theorem deal_drop_state (tidy : world.Tidy) (name : String) :
    Outcome.Deal trust world false [] (world.dropState name) := by
  unfold dropState
  split
  · exact deal_answer (.inr rfl)
  · rename_i state found
    apply deal_after
    · exact upkeep_client world rfl (fun distinct => distinct)
        fun distinct => NameMap.distinct_erase distinct _
    · exact gives_back_drops _
    · intro trusted id
      rw [surplus_erase_own_state id tidy.states, found, carried_drops]
      simp [SignalState.values]

theorem of_bridge_of_offers (tidy : world.Tidy) {function : NativeFunction}
    (offers : world.Offers function) : function.OfBridge := by
  obtain ⟨classId, record, held, found⟩ := offers
  obtain ⟨bridge, made⟩ := tidy.classes classId record held
  rw [made] at found
  obtain rfl | ⟨name, method⟩ := found
  · exact ⟨bridge, .construct, rfl⟩
  · obtain ⟨pair, listed, rfl⟩ := NameMap.mem_of_find_of_list method
    simp only [BridgeId.definition, List.mem_cons, List.not_mem_nil, or_false] at listed
    rcases listed with rfl | rfl | rfl | rfl
    · exact ⟨bridge, .connect, rfl⟩
    · exact ⟨bridge, .disconnect, rfl⟩
    · exact ⟨bridge, .isEmpty, rfl⟩
    · exact ⟨bridge, .toString, rfl⟩

section Commands

variable {read : Operand → Value} {command : Command} {errand : Errand}

theorem alive_of_operands {operands : List Operand}
    (live : ∀ operand ∈ operands, ∀ place, read operand = .object place →
      world.isAlive (.object place) = true) :
    ∀ place, .object place ∈ operands.map read → world.isAlive (.object place) = true := by
  intro place member
  obtain ⟨operand, listed, same⟩ := List.mem_map.1 member
  exact live operand listed place same

theorem deal_forget (register : String) :
    Outcome.Deal trust world false []
      (done { world with client.registers := world.client.registers.erase register } .nothing) := by
  apply deal_done
  · exact upkeep_client world rfl (fun distinct => distinct) fun distinct => distinct
  · intro trusted id
    simp
    rfl

theorem deal_duplicate {value : Value}
    (alive : trust → ∀ place, value = .object place → world.isAlive value = true) :
    Outcome.Deal trust world true [] ((world.duplicate value).done (.value value)) := by
  apply deal_done (upkeep_duplicate world _)
  intro trusted id
  rw [surplus_duplicate id (alive trusted)]
  simp [Reply.values]

theorem deal_reserve (reply : Reply) :
    Outcome.Deal trust world false [] (world.reserveClass.done reply) := by
  apply deal_done (upkeep_reserve world)
  intro trusted id
  simp [surplus_reserve]

theorem deal_collect : Outcome.Deal trust world false [] world.collect := by
  unfold collect
  dsimp only
  split
  · refine ⟨.refl world, ?_, ?_, ?_, ?_, ?_⟩ <;> simp [Task.carried, Task.dueAfter, Task.Native]
  · refine ⟨.refl world, ?_, ?_, ?_, ?_, ?_⟩ <;> simp [Task.carried, Task.dueAfter, Task.Native]

theorem deal_undertake (tidy : world.Tidy) (covered : trust → world.Covered)
    (account : world.Account read command errand) (offered : command.Offered)
    (live : trust → ∀ operand ∈ command.operands, ∀ place, read operand = .object place →
      world.isAlive (.object place) = true) :
    Outcome.Deal trust world command.owning (command.given read) (world.undertake errand) := by
  have alive : ∀ operand ∈ command.operands, trust → ∀ place, read operand = .object place →
      world.isAlive (read operand) = true := by
    intro operand member trusted place same
    rw [same]
    exact live trusted operand member place same
  cases account with
  | answer keeps lends source =>
      rw [keeps]
      exact deal_answer lends
  | forget register => exact deal_forget register
  | create => exact deal_allocate .plain
  | createFunction name => exact deal_allocate (.function name)
  | setProperty object key value => exact deal_set_property _ key _
  | getProperty object key =>
      exact deal_give fun trusted _ found => alive_of_property (covered trusted) found
  | duplicate value => exact deal_duplicate (alive value (List.mem_singleton_self value))
  | release value => exact deal_release _
  | collect => exact deal_collect
  | finalizeNow value => exact deal_finalize_now tidy _
  | reserve => exact deal_reserve _
  | classPrototype classId =>
      exact deal_give fun trusted _ found => alive_of_class_prototype (covered trusted) found
  | instantiate proto classId => exact deal_instantiate _ classId
  | call owns offers receives listed =>
      obtain ⟨bridge, entry, rfl⟩ := of_bridge_of_offers tidy offers
      rw [owns]
      refine deal_enter_signal covered bridge entry .script _ ?_
      exact fun trusted => alive_of_operands fun operand member =>
        live trusted operand (listed operand member)
  | install name config => exact deal_install_bridge name config
  | dropBridge name => exact deal_drop_bridge name
  | enter entry receiver operands named =>
      refine deal_enter_bridge covered _ entry _ ?_
      exact fun trusted => alive_of_operands fun operand member =>
        live trusted operand (List.mem_cons_of_mem receiver member)
  | finalize handle named => exact deal_finalize_through _ _
  | acquire name value =>
      exact deal_acquire_reference name (alive value (List.mem_singleton_self value))
  | dropReference name => exact deal_drop_named_reference tidy name
  | createState name link => exact deal_create_state tidy name link
  | setCallback name callback =>
      exact deal_set_state_callback name (alive callback (List.mem_singleton_self callback))
  | clearState name keep => exact deal_clear_state name keep
  | dropState name => exact deal_drop_state tidy name
  | setSlot | createBridge | shutDown => exact offered.elim

theorem deal_perform (tidy : world.Tidy) (covered : trust → world.Covered) {command : Command}
    (offered : command.Offered)
    (live : trust → ∀ operand ∈ command.operands, ∀ place, read operand = .object place →
      world.isAlive (.object place) = true) :
    Outcome.Deal trust world command.owning (command.given read) (world.perform read command) := by
  rw [perform_errand tidy.running]
  exact deal_undertake tidy covered (world.account read command) offered live

end Commands

end Deals

end World

end ScriptSignal
