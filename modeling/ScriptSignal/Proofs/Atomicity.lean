import ScriptSignal.Proofs.Record
import ScriptSignal.Proofs.Attained

/-!
# Calls that fail leave no trace

A failing call may have acquired its link and the prototype before it fails. What is acquired is
given back in the opposite order, and where nothing was without references no object is
reclaimed by that. All that stays is what was told. A call that does not fail answers with
something else in the end, whatever runs before and after it answers.
-/

namespace ScriptSignal

set_option autoImplicit false

theorem Heap.put_put_self {heap : Heap} {id : ObjectId} {object : Object} (other : Object)
    (found : heap.get? id = some object) : (heap.put id other).put id object = heap := by
  have inside := Heap.index_lt_of_get found
  have place : heap.places[id.index] = some object := by
    have reached : (heap.places[id.index]?).join = some object := found
    rw [Array.getElem?_eq_getElem inside] at reached
    exact reached
  unfold put
  rw [Array.setIfInBounds_setIfInBounds]
  congr 1
  apply Array.ext (by simp)
  intro index _ below
  by_cases here : id.index = index
  · subst here
    simp [place]
  · exact Array.getElem_setIfInBounds_ne _ here

theorem Heap.lookup_within_recount {heap : Heap} {place : ObjectId} {object : Object}
    (found : heap.get? place = some object) {count : Nat} (key : String) (steps : Nat)
    (id : ObjectId) :
    (heap.put place { object with refCount := count }).lookupWithin key steps id =
      heap.lookupWithin key steps id := by
  induction steps generalizing id with
  | zero => rfl
  | succ steps induction =>
      unfold lookupWithin
      by_cases here : id = place
      · rw [here, get_put_same found, found]
        simp only [induction]
      · rw [get_put_other _ here]
        simp only [induction]

structure World.Unchanged (before after : World) : Prop where
  engine : after.engine = before.engine
  bridges : after.bridges = before.bridges
  client : after.client = before.client

namespace World

/-- The object was freed, or it has a reference. -/
def Backed (world : World) (id : ObjectId) : Prop :=
  ∀ object, world.engine.heap.get? id = some object → 1 ≤ object.refCount

instance (world : World) (id : ObjectId) : Decidable (world.Backed id) :=
  decidable_of_iff
    ((world.engine.heap.get? id).all (fun object => decide (1 ≤ object.refCount)) = true)
    (by simp [Backed, Option.all_eq_true])

section Unchanged

variable {before world after : World}

theorem Unchanged.refl (world : World) : Unchanged world world := ⟨rfl, rfl, rfl⟩

theorem Unchanged.trans (first : Unchanged before world) (second : Unchanged world after) :
    Unchanged before after :=
  ⟨second.engine.trans first.engine, second.bridges.trans first.bridges,
    second.client.trans first.client⟩

/-- A world that differs in what was told alone is the one before with other events. -/
theorem Unchanged.eq (same : Unchanged before after) :
    after = { before with events := after.events } := by
  obtain ⟨engine, bridges, client, events⟩ := after
  obtain ⟨rfl, rfl, rfl⟩ := same
  rfl

theorem unchanged_emit (world : World) (event : Event) : Unchanged world (world.emit event) :=
  ⟨rfl, rfl, rfl⟩

theorem Unchanged.emit (same : Unchanged before world) (event : Event) :
    Unchanged before (world.emit event) := same.trans (unchanged_emit world event)

theorem Unchanged.release (same : Unchanged world after) (value : Value) :
    (after.release value).2 = (world.release value).2 ∧
      Unchanged (world.release value).1 (after.release value).1 := by
  obtain ⟨engine, bridges, client, events⟩ := world
  obtain ⟨laterEngine, laterBridges, laterClient, told⟩ := after
  obtain ⟨rfl, rfl, rfl⟩ := same
  cases value with
  | object id =>
      cases found : laterEngine.heap.get? id with
      | none =>
          simp only [World.release, releaseObject, found]
          exact ⟨trivial, rfl, rfl, rfl⟩
      | some object =>
          cases counted : object.refCount with
          | zero =>
              simp only [World.release, releaseObject, found, counted]
              exact ⟨trivial, rfl, rfl, rfl⟩
          | succ count =>
              by_cases last : count = 0
              · cases mode : laterEngine.mode with
                | immediate =>
                    simp only [World.release, releaseObject, found, counted, putObject, mode,
                      if_pos last]
                    exact ⟨trivial, rfl, rfl, rfl⟩
                | deferred =>
                    simp only [World.release, releaseObject, found, counted, putObject, mode,
                      if_pos last]
                    exact ⟨trivial, rfl, rfl, rfl⟩
              · simp only [World.release, releaseObject, found, counted, if_neg last]
                exact ⟨trivial, rfl, rfl, rfl⟩
  | _ => exact ⟨rfl, rfl, rfl, rfl⟩

/-- A reference to a value is counted and given back, and nothing is lost by that. -/
theorem release_duplicate {value : Value}
    (backed : ∀ id, value = .object id → world.Backed id) :
    ((world.duplicate value).release value).2 = [] ∧
      Unchanged world ((world.duplicate value).release value).1 := by
  cases value with
  | object id =>
      cases found : world.engine.heap.get? id with
      | none =>
          have missing : (world.emit (.unknownDuplicate id)).engine.heap.get? id = none := found
          simp only [duplicate, found, release, releaseObject, missing]
          exact ⟨trivial, (unchanged_emit _ _).emit _⟩
      | some object =>
          have held := backed id rfl object found
          have counted : (world.putObject id
              { object with refCount := object.refCount + 1 }).engine.heap.get? id =
                some { object with refCount := object.refCount + 1 } := Heap.get_put_same found _
          have heap := Heap.put_put_self { object with refCount := object.refCount + 1 } found
          have more : object.refCount ≠ 0 := by omega
          simp only [duplicate, found, release, releaseObject, counted, if_neg more]
          refine ⟨trivial, ?_, rfl, rfl⟩
          exact congrArg (fun heap => { world.engine with heap }) heap
  | _ => exact ⟨rfl, .refl _⟩

theorem backed_duplicate {id : ObjectId} (backed : world.Backed id) (value : Value) :
    (world.duplicate value).Backed id := by
  intro object reached
  cases value with
  | object place =>
      cases found : world.engine.heap.get? place with
      | none =>
          simp only [duplicate, found] at reached
          exact backed object reached
      | some held =>
          simp only [duplicate, found] at reached
          by_cases here : id = place
          · subst here
            have counted : (world.putObject id
                { held with refCount := held.refCount + 1 }).engine.heap.get? id =
                  some { held with refCount := held.refCount + 1 } := Heap.get_put_same found _
            cases counted.symm.trans reached
            exact Nat.le_add_left 1 held.refCount
          · have kept : (world.putObject place
                { held with refCount := held.refCount + 1 }).engine.heap.get? id =
                  world.engine.heap.get? id := Heap.get_put_other _ here _
            exact backed object (kept.symm.trans reached)
  | _ => exact backed object reached

end Unchanged

end World

/-- What is on an agenda leads back to where it began, one task after the other. -/
inductive Reverts (before : World) : World → List Task → Prop
  | done {world : World} (same : before.Unchanged world) : Reverts before world []
  | release {world : World} {value : Value} {rest : List Task}
      (nothing : (world.release value).2 = [])
      (onward : Reverts before (world.release value).1 rest) :
      Reverts before world (.release value :: rest)
  | drop {world : World} {held : StrongRef} {rest : List Task}
      (running : world.engine.running = true)
      (onward : Reverts before (world.emit (.released held.value)) (.release held.value :: rest)) :
      Reverts before world (.drop held :: rest)
  | answer {world : World} {reply : Reply} {rest : List Task}
      (mute : ∀ value, reply ≠ .value value) (onward : Reverts before world rest) :
      Reverts before world (.answer reply :: rest)
  | endCall {world : World} {id : BridgeId} {rest : List Task}
      (nothing : (world.endCall id).2 = []) (onward : Reverts before (world.endCall id).1 rest) :
      Reverts before world (.endCall id :: rest)
  | finish {world : World} {label : String} {rest : List Task}
      (onward : Reverts before world rest) : Reverts before world (.finish label :: rest)

namespace Machine

section Reverting

variable {before : World} {machine : Machine}

theorem reverts_step (reverts : Reverts before machine.world machine.agenda) :
    Reverts before machine.step.world machine.step.agenda := by
  cases shape : machine.agenda with
  | nil =>
      rw [step_of_nil shape]
      exact reverts
  | cons task rest =>
      rw [shape] at reverts
      rw [step_of_cons shape]
      cases reverts with
      | @release _ value _ nothing onward =>
          change Reverts before (machine.world.release value).1
            ((machine.world.release value).2 ++ rest)
          rw [nothing]
          exact onward
      | @drop _ held _ running onward =>
          have given : machine.world.dropReference held =
              (machine.world.emit (.released held.value), [.release held.value]) := by
            simp [World.dropReference, running]
          change Reverts before (machine.world.dropReference held).1
            ((machine.world.dropReference held).2 ++ rest)
          rw [given]
          exact onward
      | @answer _ reply _ mute onward =>
          rcases answer_cases { machine with agenda := rest } reply with
            kept | ⟨register, value, same, -⟩
          · obtain ⟨agenda, -, -⟩ := parts_answer { machine with agenda := rest } reply
            change Reverts before (answer _ reply).world (answer _ reply).agenda
            rw [kept, agenda]
            exact onward
          · exact absurd same (mute value)
      | @endCall _ id _ nothing onward =>
          change Reverts before (machine.world.endCall id).1 ((machine.world.endCall id).2 ++ rest)
          rw [nothing]
          exact onward
      | @finish _ label _ onward =>
          simp only [carryOut, record]
          split <;> exact onward

theorem reverts_run (reverts : Reverts before machine.world machine.agenda) (fuel : Nat) :
    Reverts before (machine.run fuel).world (machine.run fuel).agenda :=
  run_of_step (fun _ => True) (fun machine => Reverts before machine.world machine.agenda)
    trivial reverts (fun _ _ => trivial) (fun _ _ => reverts_step) fuel

end Reverting

end Machine

def Reply.Fails : Reply → Prop
  | .failed _ | .raised _ => True
  | _ => False

theorem Reply.fails_error (route : Route) (failure : Failure) :
    (route.reply (.error failure)).Fails := by
  cases route <;> trivial

theorem Reply.not_fails_ok (route : Route) (value : Value) :
    ¬(route.reply (.ok value)).Fails := by
  cases route <;> exact fun fails => fails

namespace Task

def Avoids : Task → Prop
  | .answer reply => ¬reply.Fails
  | .enter _ _ _ purpose => purpose = .finalize
  | .leave _ _ | .perform _ | .iterate _ _ | .drain _ | .reportCollection _ => False
  | _ => True

def Answers : Task → Prop
  | .answer _ | .bind _ _ _ _ => True
  | _ => False

end Task

structure Outcome.Succeeds (outcome : Outcome) : Prop where
  avoids : ∀ task ∈ outcome.2, task.Avoids
  answers : ∃ task ∈ outcome.2, task.Answers

namespace World

section Outcomes

variable {before start world : World} {tail : List Task}

theorem succeeds_done {reply : Reply} (fine : ¬reply.Fails) : (world.done reply).Succeeds where
  avoids := by
    intro task member
    cases List.mem_singleton.1 member
    exact fine
  answers := ⟨_, List.mem_singleton_self _, trivial⟩

theorem succeeds_ok (route : Route) (value : Value) :
    (world.done (route.reply (.ok value))).Succeeds :=
  succeeds_done (Reply.not_fails_ok route value)

theorem reverts_failed (closes : ∀ world, start.Unchanged world → Reverts before world tail)
    (same : start.Unchanged world) (route : Route) (failure : Failure) :
    Reverts before world (.answer (route.reply (.error failure)) :: tail) := by
  refine .answer ?_ (closes world same)
  intro value equal
  have fails := Reply.fails_error route failure
  rw [equal] at fails
  exact fails

theorem reverts_unlinked (closes : ∀ world, start.Unchanged world → Reverts before world tail)
    (running : start.engine.running = true) {object : ObjectId} (backed : start.Backed object)
    (same : (start.acquire (.object object)).Unchanged world) (route : Route)
    (failure : Failure) :
    Reverts before world
      (.drop ⟨.object object⟩ :: .answer (route.reply (.error failure)) :: tail) := by
  have duplicated : (start.duplicate (.object object)).engine.running = true := by
    simp only [duplicate]
    split <;> exact running
  have runs : world.engine.running = true := by
    rw [same.engine]
    exact duplicated
  have told : (start.duplicate (.object object)).Unchanged
      (world.emit (.released (.object object))) :=
    ((unchanged_emit _ _).trans same).emit _
  have given := @release_duplicate start (.object object) fun id equal => by
    cases equal
    exact backed
  have back := told.release (.object object)
  refine .drop runs (.release (back.1.trans given.1) ?_)
  exact reverts_failed closes (given.2.trans back.2) route failure

/-- The objects that a call may acquire were freed or have references. -/
structure Backs (world : World) (target : Value) (arguments : List Value) : Prop where
  link : ∀ id, arguments = [.object id] → world.Backed id
  prototype : target.isUndefined = false → ∀ id,
    world.property? target "prototype" = .ok (.object id) → world.Backed id

theorem property_duplicate (world : World) (value target : Value) (key : String) :
    (world.duplicate value).property? target key = world.property? target key := by
  cases target with
  | object place =>
      cases value with
      | object id =>
          cases found : world.engine.heap.get? id with
          | none => simp only [duplicate, found, property?, emit]
          | some object =>
              simp only [duplicate, found, property?, Heap.lookup, putObject]
              rw [Heap.lookup_within_recount found]
      | _ => rfl
  | _ => rfl

theorem backs_acquire {target : Value} {arguments : List Value}
    (backs : world.Backs target arguments) (value : Value) :
    (world.acquire value).Backs target arguments := by
  constructor
  · intro id same
    exact backed_duplicate (backs.link id same) value
  · intro explicit id found
    refine backed_duplicate (backs.prototype explicit id ?_) value
    exact (property_duplicate world value target "prototype").symm.trans found

theorem signal_class_duplicate (world : World) (value : Value) (id : BridgeId) :
    (world.duplicate value).signalClass? id = world.signalClass? id := by
  cases value with
  | object place =>
      simp only [duplicate]
      split <;> rfl
  | _ => rfl

theorem signal_class_of_undefined {id : BridgeId} {target proto : Value}
    (explicit : target.isUndefined = true) (sought : world.signalPrototype? id target = .ok proto) :
    (world.duplicate proto).signalClass? id ≠ none := by
  rw [signal_class_duplicate]
  unfold signalPrototype? at sought
  rw [explicit, if_pos rfl] at sought
  split at sought
  · rename_i classId ofBridge
    unfold classPrototype? at sought
    split at sought
    · rename_i record defined
      simp [signalClass?, ofBridge, isDefined, defined]
    · cases sought
  · cases sought

/-- A construction that fails gives the prototype back, if it was found, and the link. -/
theorem construct_linked_cases {id : BridgeId} {route : Route} {target : Value}
    {link : Option StrongRef}
    (unlinks : ∀ later, world.Unchanged later → ∀ failure, Reverts before later
      (link.toList.map .drop ++ .answer (route.reply (.error failure)) :: tail))
    (backed : target.isUndefined = false → ∀ id,
      world.property? target "prototype" = .ok (.object id) → world.Backed id) :
    Reverts before (world.constructLinked id route target link).1
        ((world.constructLinked id route target link).2 ++ tail) ∨
      (world.constructLinked id route target link).Succeeds := by
  unfold constructLinked
  dsimp only
  cases sought : world.signalPrototype? id target with
  | error failure =>
      left
      have waits := unlinks world (.refl world) failure
      rw [List.append_cons] at waits
      exact waits
  | ok proto =>
      dsimp only
      cases ofClass : (world.duplicate proto).signalClass? id with
      | some classId =>
          right
          refine ⟨?_, .bind id route (world.duplicate proto).nextValue link, by simp, trivial⟩
          intro task member
          simp only [List.mem_cons, List.not_mem_nil, or_false] at member
          rcases member with rfl | rfl <;> trivial
      | none =>
          left
          have held : ∀ place, proto = .object place → world.Backed place := by
            rintro place rfl
            cases explicit : target.isUndefined with
            | false =>
                unfold signalPrototype? at sought
                rw [explicit, if_neg Bool.false_ne_true] at sought
                exact backed explicit place sought
            | true => exact absurd ofClass (signal_class_of_undefined explicit sought)
          obtain ⟨nothing, back⟩ := release_duplicate held
          refine .release nothing ?_
          have waits := unlinks _ back .unknownClass
          rw [List.append_cons] at waits
          exact waits

theorem construct_signal_cases
    (closes : ∀ world, start.Unchanged world → Reverts before world tail)
    (running : start.engine.running = true) {id : BridgeId} {route : Route} {target : Value}
    {arguments : List Value} (backs : start.Backs target arguments) :
    Reverts before (start.constructSignal id route target arguments).1
        ((start.constructSignal id route target arguments).2 ++ tail) ∨
      (start.constructSignal id route target arguments).Succeeds := by
  have unlinked : Reverts before (start.constructLinked id route target none).1
        ((start.constructLinked id route target none).2 ++ tail) ∨
      (start.constructLinked id route target none).Succeeds :=
    construct_linked_cases (fun _ same failure => reverts_failed closes same route failure)
      backs.prototype
  unfold constructSignal
  split
  · exact unlinked
  · exact unlinked
  · rename_i object
    refine construct_linked_cases ?_ (backs_acquire backs _).prototype
    intro later same failure
    exact reverts_unlinked closes running (backs.link object rfl) same route failure
  · exact .inl (reverts_failed closes (.refl start) route _)
  · exact .inl (reverts_failed closes (.refl start) route _)

theorem connect_cases (closes : ∀ world, start.Unchanged world → Reverts before world tail)
    (id : BridgeId) (route : Route) (handle : Value) (arguments : List Value) :
    Reverts before (start.connect id route handle arguments).1
        ((start.connect id route handle arguments).2 ++ tail) ∨
      (start.connect id route handle arguments).Succeeds := by
  unfold connect
  split
  · split
    · exact .inl (reverts_failed closes (.refl start) route _)
    · exact .inr (succeeds_ok route _)
  · exact .inl (reverts_failed closes (.refl start) route _)

theorem disconnect_token_cases
    (closes : ∀ world, start.Unchanged world → Reverts before world tail) (id : BridgeId)
    (route : Route) (handle : Value) (token : Int32) :
    Reverts before (start.disconnectToken id route handle token).1
        ((start.disconnectToken id route handle token).2 ++ tail) ∨
      (start.disconnectToken id route handle token).Succeeds := by
  unfold disconnectToken
  split
  · exact .inr (succeeds_ok route _)
  · split
    · exact .inl (reverts_failed closes (.refl start) route _)
    · dsimp only
      split
      · exact .inl (reverts_failed closes (unchanged_emit start _) route _)
      · split
        · exact .inr (succeeds_ok route _)
        · right
          refine ⟨?_, _, List.mem_append_right _ (List.mem_singleton_self _), trivial⟩
          intro task member
          rcases List.mem_append.1 member with early | last
          · simp only [List.mem_cons, List.not_mem_nil, or_false] at early
            rcases early with rfl | rfl <;> trivial
          · cases List.mem_singleton.1 last
            exact Reply.not_fails_ok route _

theorem disconnect_cases (closes : ∀ world, start.Unchanged world → Reverts before world tail)
    (id : BridgeId) (route : Route) (handle : Value) (arguments : List Value) :
    Reverts before (start.disconnect id route handle arguments).1
        ((start.disconnect id route handle arguments).2 ++ tail) ∨
      (start.disconnect id route handle arguments).Succeeds := by
  unfold disconnect
  split
  · split
    · exact disconnect_token_cases closes id route handle _
    · exact .inl (reverts_failed closes (.refl start) route _)
  · exact .inl (reverts_failed closes (.refl start) route _)

theorem is_empty_cases (closes : ∀ world, start.Unchanged world → Reverts before world tail)
    (id : BridgeId) (route : Route) (handle : Value) (arguments : List Value) :
    Reverts before (start.isEmpty id route handle arguments).1
        ((start.isEmpty id route handle arguments).2 ++ tail) ∨
      (start.isEmpty id route handle arguments).Succeeds := by
  unfold isEmpty
  split
  · cases start.boundState id handle with
    | error failure => exact .inl (reverts_failed closes (.refl start) route failure)
    | ok found => exact .inr (succeeds_ok route _)
  · exact .inl (reverts_failed closes (.refl start) route _)

theorem enter_signal_cases (closes : ∀ world, start.Unchanged world → Reverts before world tail)
    (running : start.engine.running = true) (id : BridgeId) (entry : Entry) (route : Route)
    {receiver : Value} {arguments : List Value}
    (backs : entry = .construct → start.Backs receiver arguments) :
    Reverts before (start.enterSignal id entry route receiver arguments).1
        ((start.enterSignal id entry route receiver arguments).2 ++ tail) ∨
      (start.enterSignal id entry route receiver arguments).Succeeds := by
  cases entry with
  | construct => exact construct_signal_cases closes running (backs rfl)
  | connect => exact connect_cases closes id route receiver arguments
  | disconnect => exact disconnect_cases closes id route receiver arguments
  | isEmpty => exact is_empty_cases closes id route receiver arguments
  | toString => exact .inr (succeeds_ok route _)

/-- A direct call that began is over, and somebody still holds the bridge. -/
theorem end_call_of_begun {id : BridgeId} (named : id ∈ before.client.bridges.values)
    (same : (before.beginCall id).Unchanged world) :
    (world.endCall id).2 = [] ∧ before.Unchanged (world.endCall id).1 := by
  have holds : (world.modifyBridge id fun bridge =>
      { bridge with active := bridge.active - 1 }).holdsBridge id = true := by
    apply holds_bridge_iff.2
    left
    change id ∈ world.client.bridges.values
    rw [same.client]
    exact named
  have settled : world.endCall id = (world.modifyBridge id fun bridge =>
      { bridge with active := bridge.active - 1 }, []) := by
    simp [endCall, settleBridge, holds]
  rw [settled]
  refine ⟨rfl, same.engine, ?_, same.client⟩
  change world.bridges.modify id.index (fun bridge =>
    { bridge with active := bridge.active - 1 }) = before.bridges
  rw [same.bridges]
  change (before.bridges.modify id.index fun bridge =>
    { bridge with active := bridge.active + 1 }).modify id.index (fun bridge =>
      { bridge with active := bridge.active - 1 }) = before.bridges
  apply Array.ext (by simp)
  intro index _ below
  simp only [Array.getElem_modify]
  split <;> rfl

/-- A call fails and leads back, or it does not fail, however the bridge is reached. -/
theorem place_cases (running : before.engine.running = true) {call : Call}
    (named : call.route = .direct → call.bridge ∈ before.client.bridges.values)
    (backs : call.entry = .construct → before.Backs call.receiver call.arguments)
    (label : String) :
    Reverts before (before.place call).1 ((before.place call).2 ++ [.finish label]) ∨
      (before.place call).Succeeds := by
  obtain ⟨id, entry, route, receiver, arguments⟩ := call
  cases route with
  | script =>
      exact enter_signal_cases (fun _ same => .finish (.done same)) running id entry .script backs
  | direct =>
      have closes : ∀ world, (before.beginCall id).Unchanged world →
          Reverts before world [.endCall id, .finish label] := by
        intro world same
        obtain ⟨nothing, back⟩ := end_call_of_begun (named rfl) same
        exact .endCall nothing (.finish (.done back))
      have begun : entry = .construct → (before.beginCall id).Backs receiver arguments :=
        fun construct => ⟨(backs construct).link, (backs construct).prototype⟩
      rcases enter_signal_cases closes running id entry .direct begun with reverts | succeeds
      · left
        rw [List.append_cons] at reverts
        exact reverts
      · right
        obtain ⟨task, member, answers⟩ := succeeds.answers
        refine ⟨?_, task, List.mem_append_left _ member, answers⟩
        intro next listed
        rcases List.mem_append.1 listed with early | last
        · exact succeeds.avoids next early
        · cases List.mem_singleton.1 last
          trivial

end Outcomes

end World

/-- The step under way of the client is answered with no failure. Bodies within may answer
their own steps with whatever they like. -/
inductive Fine : Frame → List Frame → List Task → Prop
  | ground {frame : Frame} {tasks : List Task} (avoids : ∀ task ∈ tasks, task.Avoids)
      (answers : ¬frame.reply.Fails ∨ ∃ task ∈ tasks, task.Answers) : Fine frame [] tasks
  | within {frame caller : Frame} {callers : List Frame} {early late : List Task} {body : Body}
      {purpose : Purpose} (level : ∀ task ∈ early, task.leaves = false)
      (below : Fine caller callers late) (ignored : callers = [] → purpose = .finalize) :
      Fine frame (caller :: callers) (early ++ .leave body purpose :: late)

/-- What a frame within was answered does not matter. -/
theorem Fine.reframe {frame other caller : Frame} {callers : List Frame} {tasks : List Task}
    (fine : Fine frame (caller :: callers) tasks) : Fine other (caller :: callers) tasks := by
  cases fine with
  | within level below ignored => exact .within level below ignored

/-- A step that is over and was answered with no failure in between was answered with none. -/
theorem Fine.not_fails {frame : Frame} {callers : List Frame} {tasks : List Task}
    (fine : Fine frame callers tasks) (done : tasks = []) : ¬frame.reply.Fails := by
  cases fine with
  | ground avoids answers =>
      rcases answers with answered | ⟨task, member, -⟩
      · exact answered
      · rw [done] at member
        cases member
  | within level below ignored => simp at done

namespace Machine

section Answers

variable {machine : Machine} {rest : List Task} {task : Task}

theorem Kept.level_step (kept : machine.Kept) (shape : machine.agenda = task :: rest)
    (stays : task.leaves = false) :
    (∃ tasks, machine.step.agenda = tasks ++ rest ∧ (∀ next ∈ tasks, next.leaves = false) ∧
        machine.step.callers = machine.callers) ∨
      ∃ body purpose,
        machine.step.agenda = body.steps.map Task.perform ++ .leave body purpose :: rest ∧
          machine.step.callers = machine.frame :: machine.callers := by
  have turn := kept.turn shape
  obtain ⟨tasks, left, leftover⟩ := kept.leftover shape turn
  have within : machine.step.callers = machine.callers →
      ∃ tasks, machine.step.agenda = tasks ++ rest ∧ (∀ next ∈ tasks, next.leaves = false) ∧
        machine.step.callers = machine.callers := by
    intro same
    have depth := leftover.depth
    rw [same, List.countP_singleton, stays] at depth
    have none : tasks.countP Task.leaves = 0 := by simpa using depth
    refine ⟨tasks, left, ?_, same⟩
    intro next member
    simpa using List.countP_eq_zero.1 none next member
  generalize machine.step = after at turn within ⊢
  cases turn with
  | enter world agenda callers => exact .inr ⟨_, _, agenda, callers⟩
  | leave moves agenda callers => cases stays
  | _ => exact .inl (within (by assumption))

theorem fine_onward {after : Machine} {tasks : List Task}
    (avoids : ∀ next ∈ task :: rest, next.Avoids)
    (answers : ¬machine.frame.reply.Fails ∨ ∃ next ∈ task :: rest, next.Answers)
    (other : ¬task.Answers) (early : ∀ next ∈ tasks, next.Avoids)
    (agenda : after.agenda = tasks ++ rest) (frame : after.frame = machine.frame)
    (callers : after.callers = []) : Fine after.frame after.callers after.agenda := by
  rw [agenda, frame, callers]
  refine .ground ?_ ?_
  · intro next member
    rcases List.mem_append.1 member with new | old
    · exact early next new
    · exact avoids next (List.mem_cons_of_mem task old)
  · rcases answers with answered | ⟨next, member, answers⟩
    · exact .inl answered
    · rcases List.mem_cons.1 member with rfl | later
      · exact absurd answers other
      · exact .inr ⟨next, List.mem_append_right tasks later, answers⟩

theorem avoids_of_drops {tasks : List Task}
    (drops : ∀ next ∈ tasks, ∃ held, next = Task.drop held) : ∀ next ∈ tasks, next.Avoids := by
  intro next member
  obtain ⟨held, rfl⟩ := drops next member
  trivial

theorem avoids_of_finalizer {world : World} (id : ObjectId) :
    ∀ next ∈ (world.runFinalizer id).2, next.Avoids := by
  intro next member
  rcases World.task_of_finalizer member with ⟨held, rfl⟩ | ⟨body, receiver, arguments, rfl⟩
  · trivial
  · rfl

theorem avoids_of_reclaim {world : World} (id : ObjectId) :
    ∀ next ∈ (world.reclaim id).2, next.Avoids := by
  intro next member
  unfold World.reclaim at member
  split at member
  · cases member
  · split at member
    · rcases List.mem_append.1 member with early | last
      · exact avoids_of_finalizer id next early
      · cases List.mem_singleton.1 last
        trivial
    · cases member

theorem avoids_of_release {world : World} (value : Value) :
    ∀ next ∈ (world.release value).2, next.Avoids := by
  intro next member
  obtain ⟨id, -, -, rfl⟩ := World.task_of_release member
  trivial

theorem avoids_of_drop {world : World} (held : StrongRef) :
    ∀ next ∈ (world.dropReference held).2, next.Avoids := by
  intro next member
  cases World.task_of_drop_reference member
  trivial

/-- Who leaves a body goes back to the caller, whose frame is as it was unless it is answered. -/
theorem parts_leave {before : Machine} {caller : Frame} {callers : List Frame}
    (above : before.callers = caller :: callers) (body : Body) (purpose : Purpose) :
    (before.leave body purpose).agenda = before.agenda ∧
      (before.leave body purpose).callers = callers ∧
      (purpose = .finalize → (before.leave body purpose).frame = caller) := by
  simp only [leave, above]
  cases purpose with
  | finalize => exact ⟨rfl, rfl, fun _ => rfl⟩
  | call =>
      obtain ⟨agenda, -, same⟩ := parts_answer { before with frame := caller, callers }
        (before.result body)
      exact ⟨agenda, same, fun finalizes => by cases finalizes⟩

theorem succeeds_bind_signal (world : World) (id : BridgeId) (route : Route) (handle : Value)
    (link : Option StrongRef) : (world.bindSignal id route handle link).Succeeds := by
  unfold World.bindSignal
  split
  · exact World.succeeds_ok route handle
  · refine ⟨?_, _, List.mem_append_right _ (List.mem_singleton_self _), trivial⟩
    intro next member
    rcases List.mem_append.1 member with early | last
    · obtain ⟨held, -, rfl⟩ := List.mem_map.1 early
      trivial
    · cases List.mem_singleton.1 last
      exact fun fails => fails

theorem fine_step_ground (level : machine.callers = []) (shape : machine.agenda = task :: rest)
    (avoids : ∀ next ∈ task :: rest, next.Avoids)
    (answers : ¬machine.frame.reply.Fails ∨ ∃ next ∈ task :: rest, next.Answers) :
    Fine machine.step.frame machine.step.callers machine.step.agenda := by
  have first := avoids task List.mem_cons_self
  have others : ∀ next ∈ rest, next.Avoids := fun next member =>
    avoids next (List.mem_cons_of_mem task member)
  have nothing : ∀ next ∈ ([] : List Task), next.Avoids := fun _ member =>
    absurd member List.not_mem_nil
  rw [step_of_cons shape]
  cases task with
  | release value =>
      exact fine_onward avoids answers (fun answers => answers) (avoids_of_release value) rfl rfl
        level
  | drop held =>
      exact fine_onward avoids answers (fun answers => answers) (avoids_of_drop held) rfl rfl level
  | reclaim id =>
      exact fine_onward avoids answers (fun answers => answers) (avoids_of_reclaim id) rfl rfl level
  | remove id =>
      refine fine_onward avoids answers (fun answers => answers) ?_ rfl rfl level
      intro next member
      obtain ⟨value, rfl⟩ := releases_of_remove_object machine.world id next member
      trivial
  | report event =>
      exact fine_onward avoids answers (fun answers => answers) nothing rfl rfl level
  | endCall id =>
      exact fine_onward avoids answers (fun answers => answers)
        (avoids_of_drops (World.drops_of_settle_bridge _ id)) rfl rfl level
  | settle id =>
      exact fine_onward avoids answers (fun answers => answers)
        (avoids_of_drops (World.drops_of_settle_bridge _ id)) rfl rfl level
  | finish label =>
      simp only [carryOut, record]
      split <;>
        exact fine_onward avoids answers (fun answers => answers) nothing rfl rfl level
  | bind id route handle link =>
      have succeeds := succeeds_bind_signal machine.world id route handle link
      obtain ⟨task, member, answers⟩ := succeeds.answers
      change Fine machine.frame machine.callers
        ((machine.world.bindSignal id route handle link).2 ++ rest)
      rw [level]
      refine .ground ?_ (.inr ⟨task, List.mem_append_left rest member, answers⟩)
      intro next listed
      exact (List.mem_append.1 listed).elim (succeeds.avoids next) (others next)
  | answer reply =>
      obtain ⟨agenda, frame, callers⟩ := parts_answer { machine with agenda := rest } reply
      change Fine (answer _ reply).frame (answer _ reply).callers (answer _ reply).agenda
      rw [agenda, frame, callers]
      change Fine _ machine.callers rest
      rw [level]
      exact .ground others (.inl first)
  | enter body receiver arguments purpose =>
      have ignored : purpose = .finalize := first
      have below : Fine machine.frame [] rest := by
        refine .ground others (answers.imp_right ?_)
        rintro ⟨next, member, answers⟩
        rcases List.mem_cons.1 member with rfl | later
        · exact answers.elim
        · exact ⟨next, later, answers⟩
      subst ignored
      simp only [carryOut, enter]
      split
      · simp only [schedule, level, List.append_assoc, List.singleton_append]
        exact .within (by simp [Task.leaves]) below fun _ => rfl
      · simp only [level]
        exact below
  | _ => exact first.elim

theorem fine_step (attained : machine.Attained)
    (fine : Fine machine.frame machine.callers machine.agenda) :
    Fine machine.step.frame machine.step.callers machine.step.agenda := by
  generalize level : machine.callers = callers at fine
  generalize shape : machine.agenda = agenda at fine
  cases fine with
  | ground avoids answers =>
      cases agenda with
      | nil =>
          rw [step_of_nil shape, level, shape]
          exact .ground avoids answers
      | cons task rest => exact fine_step_ground level shape avoids answers
  | @within _ caller callers early late body purpose within below ignored =>
      cases early with
      | nil =>
          obtain ⟨left, same, framed⟩ :=
            @parts_leave { machine with agenda := late } caller callers level body purpose
          rw [step_of_cons shape]
          change Fine (Machine.leave _ body purpose).frame (Machine.leave _ body purpose).callers
            (Machine.leave _ body purpose).agenda
          rw [left, same]
          cases callers with
          | nil =>
              rw [framed (ignored rfl)]
              exact below
          | cons outer callers => exact below.reframe
      | cons task early =>
          have stays := within task List.mem_cons_self
          have others : ∀ next ∈ early, next.leaves = false := fun next member =>
            within next (List.mem_cons_of_mem task member)
          rcases attained.kept.level_step shape stays with
            ⟨tasks, agenda, quiet, same⟩ | ⟨inner, ending, agenda, deeper⟩
          · have left : machine.step.agenda = (tasks ++ early) ++ .leave body purpose :: late :=
              agenda.trans (List.append_assoc _ _ _).symm
            rw [left, same, level]
            refine .within ?_ below ignored
            intro next member
            exact (List.mem_append.1 member).elim (quiet next) (others next)
          · rw [agenda, deeper, level]
            exact .within (by simp [Task.leaves]) (.within others below ignored)
              fun none => by cases none

end Answers

section Calls

variable {machine ended : Machine} {label : String} {command : Command} {keep : Option String}

/-- An operation that does not fail is not answered with a failure in the end. -/
theorem not_fails_of_succeeds (attained : machine.Attained) (idle : machine.agenda = [])
    (allowed : machine.isAllowed command = true)
    (succeeds : (machine.world.perform machine.read command).Succeeds)
    (completes : machine.Completes (.act label command keep) ended) :
    ¬ended.frame.reply.Fails := by
  obtain ⟨fuel, ran, done⟩ := run_of_completes completes
  have began : (machine.submit (.act label command keep)).step.Attained :=
    (attained.submit idle _).step
  obtain ⟨-, agenda⟩ := @step_submit_of_allowed machine label command keep idle allowed
  have callers : (machine.submit (.act label command keep)).step.callers = [] := by
    have depth := began.kept.depth
    rw [agenda, List.countP_append] at depth
    have none : (machine.world.perform machine.read command).2.countP Task.leaves = 0 := by
      apply count_leaves
      intro next member
      have avoids := succeeds.avoids next member
      cases next <;> first | rfl | exact avoids.elim
    rw [none] at depth
    exact List.length_eq_zero_iff.1 depth.symm
  have fine : Fine (machine.submit (.act label command keep)).step.frame
      (machine.submit (.act label command keep)).step.callers
      (machine.submit (.act label command keep)).step.agenda := by
    rw [callers, agenda]
    obtain ⟨task, member, answers⟩ := succeeds.answers
    refine .ground ?_ (.inr ⟨task, List.mem_append_left _ member, answers⟩)
    intro next listed
    rcases List.mem_append.1 listed with early | last
    · exact succeeds.avoids next early
    · cases List.mem_singleton.1 last
      trivial
  have later := run_of_step Attained (fun machine => Fine machine.frame machine.callers
    machine.agenda) began fine (fun _ => Attained.step) (fun _ => fine_step) fuel
  rw [ran] at later
  exact later.not_fails done

/-- A command that calls an entry point is one for the engine, and may be given anywhere. -/
theorem call_command {call : Call}
    (calls : machine.world.request machine.read command = .call call) :
    machine.isAllowed command = true ∧ command.needsEngine = true ∧
      (call.route = .direct → call.bridge ∈ machine.world.client.bridges.values) := by
  have script : ∀ {function : Option NativeFunction} {receiver : Value} {arguments : List Value},
      Request.ofFunction function receiver arguments = .call call → call.route = .script := by
    intro function receiver arguments same
    unfold Request.ofFunction at same
    split at same
    · cases same
      rfl
    · cases same
  unfold World.request at calls
  split at calls
  · cases calls
  · exact ⟨rfl, rfl, fun direct => by rw [script calls] at direct; cases direct⟩
  · exact ⟨rfl, rfl, fun direct => by rw [script calls] at direct; cases direct⟩
  · exact ⟨rfl, rfl, fun direct => by rw [script calls] at direct; cases direct⟩
  · rename_i name entry receiver arguments
    cases found : machine.world.client.bridges.find? name with
    | none =>
        rw [found] at calls
        cases calls
    | some bridge =>
        rw [found] at calls
        cases calls
        exact ⟨rfl, rfl, fun _ => NameMap.mem_values_of_find found⟩
  · rename_i name handle
    cases found : machine.world.client.bridges.find? name with
    | none =>
        rw [found] at calls
        cases calls
    | some bridge =>
        rw [found] at calls
        cases calls
  · cases calls

/-- A call of an entry point that fails leaves everything as it was, but for what was told. -/
theorem unchanged_of_failure {call : Call} {failure : Failure}
    (inBounds : machine.AttainedInBounds) (idle : machine.agenda = [])
    (calls : machine.world.request machine.read command = .call call)
    (backs : call.entry = .construct → machine.world.Backs call.receiver call.arguments)
    (ends : machine.CompletesInBounds (.act label command keep) ended)
    (failed : ended.frame.reply = call.route.reply (.error failure)) :
    ended.world = { machine.world with events := ended.world.events } := by
  have attained := inBounds.attained
  have completes := ends.completes
  obtain ⟨allowed, needs, named⟩ := call_command calls
  have fails : ended.frame.reply.Fails := failed ▸ Reply.fails_error call.route failure
  have contrary : (machine.world.perform machine.read command).Succeeds → False := fun succeeds =>
    not_fails_of_succeeds attained idle allowed succeeds completes fails
  cases running : machine.world.engine.running with
  | false =>
      have refused : machine.world.perform machine.read command =
          machine.world.done (.refused .noEngine) := by
        simp [World.perform, needs, running]
      rw [refused] at contrary
      exact (contrary (World.succeeds_done fun fails => fails)).elim
  | true =>
      have meant : machine.world.fulfil (machine.world.request machine.read command) =
          some (machine.world.place call) := by
        rw [calls]
        rfl
      have performed := World.perform_request running meant
      rw [performed] at contrary
      rcases World.place_cases running named backs label with reverts | succeeds
      · obtain ⟨fuel, ran, done⟩ := run_of_completes completes
        obtain ⟨world, agenda⟩ := @step_submit_of_allowed machine label command keep idle allowed
        rw [performed] at world agenda
        rw [← world, ← agenda] at reverts
        have back := reverts_run reverts fuel
        rw [ran, done] at back
        cases back with
        | done same => exact same.eq
      · exact (contrary succeeds).elim

/-- A bridge without a class, a target with a prototype, and an object to link. -/
def orphanBridge : Machine :=
  runAll 20 (start .immediate)
    [.act "link" (.object .create) (some "link"),
      .act "prototype" (.object .create) (some "prototype"),
      .act "target" (.object .create) (some "target"),
      .act "set" (.object (.setProperty (.register "target") "prototype" (.register "prototype")))
        none,
      .act "bridge" (.bridge (.create "orphan" ⟨7⟩ {})) none]

theorem unchanged_of_orphan_bridge :
    orphanBridge.CompletesInBounds
        (.act "construct" (.bridge (.enter "orphan" .construct (.register "target")
          [.register "link"])) none)
        (runAll 20 orphanBridge
          [.act "construct" (.bridge (.enter "orphan" .construct (.register "target")
            [.register "link"])) none]) ∧
      (runAll 20 orphanBridge
          [.act "construct" (.bridge (.enter "orphan" .construct (.register "target")
            [.register "link"])) none]).world =
        { orphanBridge.world with
          events := (runAll 20 orphanBridge
            [.act "construct" (.bridge (.enter "orphan" .construct (.register "target")
              [.register "link"])) none]).world.events } := by
  have attained : orphanBridge.AttainedInBounds :=
    (attained_in_bounds_start .immediate).run_all (@rfl _ [])
      (show checkBoundsAll 20 _ _ = true from rfl)
  have completes : orphanBridge.CompletesInBounds
      (.act "construct" (.bridge (.enter "orphan" .construct (.register "target")
        [.register "link"])) none)
      (runAll 20 orphanBridge
        [.act "construct" (.bridge (.enter "orphan" .construct (.register "target")
          [.register "link"])) none]) := completes_of_check rfl
  refine ⟨completes, @unchanged_of_failure orphanBridge _ "construct" _ none
    ⟨⟨0⟩, .construct, .direct, .object ⟨2⟩, [.object ⟨0⟩]⟩ .unknownClass attained rfl rfl ?_
    completes rfl⟩
  intro _
  constructor
  · intro id same
    cases same
    decide
  · intro _ id found
    cases found
    decide

end Calls

end Machine

end ScriptSignal
