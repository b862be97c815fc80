import Mathlib.Data.Fintype.Card
import Mathlib.Data.Set.Finite.Basic
import ScriptSignal.Proofs.Agreement
import ScriptSignal.Proofs.Ledger

/-!
# Nothing is freed too early, and only cycles leak

Live objects refer to each other by what they own and, where they are bound handles, by what
their states hold. Between two requests no object without references is left, or none after a
collection. So whatever a root reaches is alive, and going back from holder to holder leads
from every live object to a root or round a cycle.
-/

namespace ScriptSignal

set_option autoImplicit false

section Graph

variable {α : Type} {edge : α → α → Prop} {live root : α → Prop}

/-- Where every node is a root or has a holder, each is reached from a root or from a cycle. -/
theorem reached_or_cyclic (finite : { node | live node }.Finite)
    (held : ∀ node, live node → root node ∨ ∃ holder, live holder ∧ edge holder node)
    {node : α} (here : live node) :
    (∃ start, root start ∧ Relation.ReflTransGen edge start node) ∨
      ∃ place, Relation.TransGen edge place place ∧ Relation.ReflTransGen edge place node := by
  let Reached (node : α) : Prop := (∃ start, root start ∧ Relation.ReflTransGen edge start node) ∨
    ∃ place, Relation.TransGen edge place place ∧ Relation.ReflTransGen edge place node
  have onward : ∀ {holder node}, edge holder node → Reached holder → Reached node := by
    rintro holder node step (⟨start, isRoot, path⟩ | ⟨place, cycle, path⟩)
    · exact .inl ⟨start, isRoot, path.tail step⟩
    · exact .inr ⟨place, cycle, path.tail step⟩
  by_contra missed
  -- the nodes that are missed are finitely many, and none of them lies on a cycle
  let Missed := { node // live node ∧ ¬Reached node }
  have few : Finite Missed := (finite.subset fun node missed => missed.1).to_subtype
  let holds (holder node : Missed) : Prop := edge holder.1 node.1
  have acyclic : ∀ node : Missed, ¬Relation.TransGen holds node node := by
    intro node cycle
    have lifted : Relation.TransGen edge node.1 node.1 :=
      cycle.lift Subtype.val fun _ _ step => step
    exact node.2.2 (.inr ⟨node.1, lifted, .refl⟩)
  have wellFounded : WellFounded (Relation.TransGen holds) := by
    have transitive : IsTrans Missed (Relation.TransGen holds) := ⟨fun _ _ _ => .trans⟩
    have irreflexive : Std.Irrefl (Relation.TransGen holds) := ⟨acyclic⟩
    exact Finite.wellFounded_of_trans_of_irrefl _
  have none : ∀ node : Missed, False := by
    intro node
    induction node using wellFounded.induction with
    | _ node induction =>
        obtain ⟨node, isLive, unreached⟩ := node
        rcases held node isLive with isRoot | ⟨holder, holderLive, step⟩
        · exact unreached (.inl ⟨node, isRoot, .refl⟩)
        · have holderMissed : ¬Reached holder := fun reached => unreached (onward step reached)
          exact induction ⟨holder, holderLive, holderMissed⟩ (.single step)
  exact none ⟨node, here, missed⟩

end Graph

def Task.Quiet : Task → Prop
  | .reportCollection _ | .answer _ | .finish _ => True
  | _ => False

namespace World

/-- A live object leads to its property values and its prototype, and a bound handle to the
callback and the link of its state. -/
inductive Edge (world : World) (holder id : ObjectId) : Prop
  | owned {object : Object} (found : world.engine.heap.get? holder = some object)
      (owns : .object id ∈ object.owned) : Edge world holder id
  | held {bridge : BridgeId} {key : Key} {state : SignalState}
      (bound : world.boundState bridge (.object holder) = .ok (key, state))
      (holds : .object id ∈ state.values) : Edge world holder id

/-- What the client owns a reference to or holds by a name, and the prototypes of classes. -/
inductive Root (world : World) (owned : List Value) (id : ObjectId) : Prop
  | owned (listed : .object id ∈ owned) : Root world owned id
  | client (held : .object id ∈ world.clientReferences) : Root world owned id
  | prototype (defined : .object id ∈ world.classReferences) : Root world owned id

def Reaches (world : World) : ObjectId → ObjectId → Prop := Relation.ReflTransGen world.Edge

def Cyclic (world : World) (id : ObjectId) : Prop := Relation.TransGen world.Edge id id

section Edges

variable {world : World} {id : ObjectId}

theorem index_lt_of_alive (alive : world.isAlive (.object id) = true) : id.index < world.size := by
  obtain ⟨place, object, same, found⟩ := object_of_alive alive
  cases same
  exact within_of_get found

theorem finite_alive (world : World) :
    { id : ObjectId | world.isAlive (.object id) = true }.Finite := by
  apply ((Set.finite_lt_nat world.size).image ObjectId.mk).subset
  intro id alive
  exact ⟨id.index, index_lt_of_alive alive, rfl⟩

/-- A table that agrees with the slots holds no state without a handle. -/
theorem exists_handle_of_state {bridgeId : BridgeId} {bridge : Bridge}
    (found : world.bridge? bridgeId = some bridge)
    (agree : world.OneToOne bridge.classId bridge.states) {key : Key} {state : SignalState}
    (reached : bridge.states.get? key = some state) :
    ∃ holder, world.boundState bridgeId (.object holder) = .ok (key, state) := by
  obtain ⟨handle, slot⟩ := agree.covered key (Slab.contains_iff.2 ⟨state, reached⟩)
  have bound : world.boundKey bridgeId handle = .ok key := bound_key_eq_ok.2 ⟨bridge, found, slot⟩
  cases handle with
  | object holder =>
      refine ⟨holder, ?_⟩
      have held : world.state? bridgeId key = some state := by simp [state?, found, reached]
      simp only [boundState, bound, held]
  | _ => cases slot

theorem alive_of_bound {bridgeId : BridgeId} {key : Key} {state : SignalState}
    (bound : world.boundState bridgeId (.object id) = .ok (key, state)) :
    world.isAlive (.object id) = true := by
  obtain ⟨bridge, -, slot⟩ := bound_key_eq_ok.1 (state_of_bound_state bound).1
  obtain ⟨bits, native, -⟩ := slot_key_eq_some_iff.1 slot
  exact is_alive_iff.2 (by simp [native])

theorem mem_table_references {bridgeId : BridgeId} {key : Key} {state : SignalState}
    (held : world.state? bridgeId key = some state) {value : Value} (holds : value ∈ state.values) :
    value ∈ world.tableReferences := by
  obtain ⟨bridge, found, reached⟩ := bridge_of_state held
  have listed : bridge ∈ world.bridges.toList := by
    unfold bridge? at found
    rw [← Array.getElem?_toList] at found
    exact List.mem_of_getElem? found
  exact List.mem_flatMap.2 ⟨bridge, listed,
    List.mem_flatMap.2 ⟨state, Slab.mem_entries_of_get reached, holds⟩⟩

theorem alive_of_edge (covered : world.Covered) {holder : ObjectId} (edge : world.Edge holder id) :
    world.isAlive (.object id) = true := by
  cases edge with
  | owned found owns => exact alive_of_owned covered found owns
  | held bound holds =>
      apply alive_of_tally covered
      have member := mem_table_references (state_of_bound_state bound).2 holds
      have present := List.count_pos_iff.2 member
      unfold tally
      omega

/-- Whatever accounts for a reference to an object is a root or a live holder. -/
theorem exists_holder_of_tally
    (agree : ∀ bridgeId bridge, world.bridge? bridgeId = some bridge →
      bridge.states.capacity ≤ 2 ^ 32 ∧ world.OneToOne bridge.classId bridge.states)
    (held : 0 < world.tally id) :
    .object id ∈ world.classReferences ∨ .object id ∈ world.clientReferences ∨
      ∃ holder, world.isAlive (.object holder) = true ∧ world.Edge holder id := by
  by_cases byClass : .object id ∈ world.classReferences
  · exact .inl byClass
  by_cases byClient : .object id ∈ world.clientReferences
  · exact .inr (.inl byClient)
  right
  right
  by_cases byObject : .object id ∈ world.objectReferences
  · obtain ⟨entry, listed, owns⟩ := List.mem_flatMap.1 byObject
    obtain ⟨index, found⟩ := List.getElem?_of_mem listed
    cases entry with
    | none => simp at owns
    | some object =>
        have reached : world.engine.heap.get? ⟨index⟩ = some object := by
          rw [Array.getElem?_toList] at found
          simp [Heap.get?, found]
        refine ⟨⟨index⟩, ?_, .owned reached (by simpa using owns)⟩
        simp [isAlive, object?, Value.object?, reached]
  · have byState : .object id ∈ world.tableReferences := by
      have classes := List.count_eq_zero.2 byClass
      have client := List.count_eq_zero.2 byClient
      have objects := List.count_eq_zero.2 byObject
      apply List.count_pos_iff.1
      unfold tally at held
      omega
    obtain ⟨bridge, listed, inTable⟩ := List.mem_flatMap.1 byState
    obtain ⟨state, entry, holds⟩ := List.mem_flatMap.1 inTable
    obtain ⟨index, found⟩ := List.getElem?_of_mem listed
    have reached : world.bridge? ⟨index⟩ = some bridge := by
      rw [Array.getElem?_toList] at found
      exact found
    obtain ⟨room, oneToOne⟩ := agree ⟨index⟩ bridge reached
    obtain ⟨key, inSlot⟩ := Slab.exists_key_of_mem room entry
    obtain ⟨holder, bound⟩ := exists_handle_of_state reached oneToOne inSlot
    exact ⟨holder, alive_of_bound bound, .held bound holds⟩

/-- A client that holds nothing has no root of its own, so without cycles the prototypes alone
keep objects. -/
theorem prototype_reaches {owned : List Value} (unowned : ∀ id, .object id ∉ owned)
    (unheld : ∀ id, .object id ∉ world.clientReferences) (acyclic : ∀ id, ¬world.Cyclic id)
    (reached : (∃ root, world.Root owned root ∧ world.Reaches root id) ∨
      ∃ place, world.Cyclic place ∧ world.Reaches place id) :
    ∃ root, .object root ∈ world.classReferences ∧ world.Reaches root id := by
  rcases reached with ⟨root, isRoot, path⟩ | ⟨place, cycle, -⟩
  · cases isRoot with
    | owned listed => exact absurd listed (unowned root)
    | client held => exact absurd held (unheld root)
    | prototype defined => exact ⟨root, defined, path⟩
  · exact absurd cycle (acyclic place)

theorem live_states_of_no_state {bridgeId : BridgeId} {bridge : Bridge}
    (found : world.bridge? bridgeId = some bridge) (room : bridge.states.capacity ≤ 2 ^ 32)
    (sound : bridge.states.Sound) (none : ∀ key state, world.state? bridgeId key ≠ some state) :
    world.liveStates bridgeId = 0 := by
  have empty : bridge.states.entries = [] := by
    rw [List.eq_nil_iff_forall_not_mem]
    intro state member
    obtain ⟨key, inSlot⟩ := Slab.exists_key_of_mem room member
    exact none key state (by simp [state?, found, inSlot])
  simp [liveStates, found, sound.counted, empty]

end Edges

/-- What reference counting achieves for a client that holds these references. -/
structure LeakFree (world : World) (owned : List Value) : Prop where
  /-- Nothing is freed too early. -/
  alive : ∀ root id, world.Root owned root → world.Reaches root id →
    world.isAlive (.object id) = true
  /-- Only cycles leak. -/
  reached : ∀ id, world.isAlive (.object id) = true →
    (∃ root, world.Root owned root ∧ world.Reaches root id) ∨
      ∃ place, world.Cyclic place ∧ world.Reaches place id
  /-- Where there is no cycle, a client that holds nothing leaves only what the prototypes of
  the classes reach. -/
  exactly : (∀ id, .object id ∉ owned) → (∀ id, .object id ∉ world.clientReferences) →
    (∀ id, ¬world.Cyclic id) → ∀ id, world.isAlive (.object id) = true ↔
      ∃ root, .object root ∈ world.classReferences ∧ world.Reaches root id
  /-- The same of the states that are left. -/
  states : (∀ id, .object id ∉ owned) → (∀ id, .object id ∉ world.clientReferences) →
    (∀ id, ¬world.Cyclic id) → ∀ bridge key state, world.state? bridge key = some state →
      ∃ handle root, world.boundState bridge (.object handle) = .ok (key, state) ∧
        .object root ∈ world.classReferences ∧ world.Reaches root handle
  /-- No state is left where no prototype reaches a handle of the bridge. -/
  emptied : (∀ id, .object id ∉ owned) → (∀ id, .object id ∉ world.clientReferences) →
    (∀ id, ¬world.Cyclic id) → ∀ bridge,
      (∀ root handle, .object root ∈ world.classReferences → world.Reaches root handle →
        world.isBound bridge (.object handle) = false) → world.liveStates bridge = 0

end World

namespace Machine

section Runs

variable {machine : Machine} {owned : List Value}

theorem known_of_honest {command : Command} (honest : machine.Honest owned command)
    (label : String) (keep : Option String) :
    (Step.act label command keep).Known machine.world := by
  intro value literal
  rcases List.mem_append.1 literal with inside | made
  · obtain ⟨operand, member, occurs⟩ := List.mem_flatMap.1 inside
    cases operand with
    | literal constant =>
        cases List.mem_singleton.1 occurs
        cases value with
        | object id => exact World.index_lt_of_alive (honest.live _ member id rfl)
        | _ => trivial
    | _ => cases occurs
  · cases value with
    | object id => exact World.index_lt_of_alive (honest.made id made)
    | _ => trivial

theorem Ledgered.reachable (ledgered : Ledgered machine owned) (classId : ClassId) :
    Reachable classId machine := by
  induction ledgered with
  | start setting => exact .start setting
  | @serve machine ended owned label command keep ledgered honest completes induction =>
      obtain ⟨idle, settling⟩ := ledgered.settled
      exact settling.calm.reachable induction idle honest.offered
        (known_of_honest honest label keep) completes.completes

theorem quiet_handle {world : World} {task : Task} (quiet : task.Quiet) :
    (world.handle task).1.engine.backlog = world.engine.backlog ∧
      ∀ next ∈ (world.handle task).2, next.Quiet := by
  cases task with
  | reportCollection before =>
      simp only [World.handle, World.reportCollection]
      refine ⟨?_, by simp [World.done, Task.Quiet]⟩
      split <;> rfl
  | answer reply => exact ⟨rfl, by simp [World.handle]⟩
  | finish label => exact ⟨rfl, by simp [World.handle]⟩
  | _ => exact quiet.elim

inductive Draining (machine : Machine) : Prop
  | waiting {early late : List Task} {count : Nat}
      (agenda : machine.agenda = early ++ .drain count :: late)
      (quiet : ∀ task ∈ late, task.Quiet) : Draining machine
  | done (empty : machine.world.engine.backlog.items = [])
      (quiet : ∀ task ∈ machine.agenda, task.Quiet) : Draining machine

theorem Draining.step_drain {count : Nat} {late : List Task}
    (shape : machine.agenda = .drain count :: late) (quiet : ∀ task ∈ late, task.Quiet) :
    machine.step.Draining := by
  obtain ⟨agenda, world, -, -⟩ := step_native shape trivial
  have backlog := (upkeep_of_register world).1.backlog
  have drained : machine.world.handle (.drain count) = machine.world.drain count := rfl
  rw [drained] at agenda backlog
  cases next : machine.world.engine.backlog.next? with
  | some taken =>
      obtain ⟨id, rest⟩ := taken
      have tasks : (machine.world.drain count).2 = [.reclaim id, .drain (count + 1)] := by
        simp [World.drain, next]
      rw [tasks] at agenda
      exact @Draining.waiting _ [.reclaim id] late (count + 1) agenda quiet
  | none =>
      have tasks : (machine.world.drain count).2 = [] := by simp [World.drain, next]
      have kept : (machine.world.drain count).1.engine.backlog = machine.world.engine.backlog := by
        simp only [World.drain, next]
        split <;> rfl
      rw [tasks] at agenda
      apply Draining.done
      · rw [backlog, kept]
        exact Backlog.items_eq_nil_of_next next
      · rw [agenda]
        exact quiet

theorem Draining.step (draining : machine.Draining) (calm : machine.Calm) :
    machine.step.Draining := by
  cases draining with
  | @waiting early late count agenda quiet =>
      cases early with
      | nil => exact .step_drain agenda quiet
      | cons task more =>
          obtain ⟨after, -⟩ := step_native agenda (calm.native task (by simp [agenda]))
          exact @Draining.waiting _ ((machine.world.handle task).2 ++ more) late count
            (by rw [after, List.append_assoc]; rfl) quiet
  | done empty quiet =>
      cases shape : machine.agenda with
      | nil =>
          rw [step_of_nil shape]
          exact .done empty quiet
      | cons task rest =>
          obtain ⟨agenda, world, -, -⟩ := step_native shape (calm.native task (by simp [shape]))
          obtain ⟨kept, later⟩ := @quiet_handle machine.world task (quiet task (by simp [shape]))
          apply Draining.done
          · rw [(upkeep_of_register world).1.backlog, kept]
            exact empty
          · intro next member
            rw [agenda] at member
            rcases List.mem_append.1 member with new | old
            · exact later next new
            · exact quiet next (by simp [shape, old])

theorem Draining.run (draining : machine.Draining) (calm : machine.Calm) (fuel : Nat) :
    (machine.run fuel).Draining :=
  calm.keeps Draining draining (fun _ calm draining => draining.step calm) fuel

def Collected (machine : Machine) : Prop :=
  ∃ before owned label keep, Ledgered before owned ∧
    before.Completes (.act label (.object .collect) keep) machine

theorem draining_begin {label : String} {keep : Option String} (calm : machine.Calm)
    (idle : machine.agenda = []) :
    (machine.submit (.act label (.object .collect) keep)).step.Draining := by
  obtain ⟨world, agenda⟩ := @step_submit machine label (.object .collect) keep idle trivial
  have collected : machine.world.perform machine.read (.object .collect) =
      machine.world.collect := by
    simp [World.perform, calm.tidy.running, World.performRunning, World.performObject]
  rw [collected] at world agenda
  by_cases pending : machine.world.engine.backlog.hasPending = true
  · simp only [World.collect, pending, if_true] at agenda
    exact @Draining.waiting _ [] _ 0 agenda (by simp [Task.Quiet])
  · have counted : machine.world.engine.backlog.pending =
        machine.world.engine.backlog.items.length := calm.tidy.counted
    have none : machine.world.engine.backlog.items = [] := by
      apply List.eq_nil_of_length_eq_zero
      simp only [Backlog.hasPending, decide_eq_true_eq] at pending
      omega
    simp only [World.collect, pending, Bool.false_eq_true, if_false] at world agenda
    apply Draining.done
    · rw [world]
      exact none
    · rw [agenda]
      simp [Task.Quiet]

theorem Collected.empty (collected : machine.Collected) :
    machine.world.engine.backlog.items = [] := by
  obtain ⟨before, owned, label, keep, ledgered, completes⟩ := collected
  obtain ⟨idle, settling⟩ := ledgered.settled
  obtain ⟨fuel, ran, ended⟩ := run_of_completes completes
  have begun := @Calm.begin before label (.object .collect) keep settling.calm idle trivial
  have draining := (@draining_begin before label keep settling.calm idle).run begun fuel
  rw [ran] at draining
  cases draining with
  | waiting agenda quiet => simp [ended] at agenda
  | done empty quiet => exact empty

/-- A live object is referred to, once no object is left that waits for its removal. -/
theorem Settling.exists_holder (settling : machine.Settling owned false)
    (idle : machine.agenda = [])
    (empty : machine.world.engine.backlog.items = [])
    (agree : ∀ bridgeId bridge, machine.world.bridge? bridgeId = some bridge →
      bridge.states.capacity ≤ 2 ^ 32 ∧ machine.world.OneToOne bridge.classId bridge.states)
    {id : ObjectId} (alive : machine.world.isAlive (.object id) = true) :
    machine.world.Root owned id ∨
      ∃ holder, machine.world.isAlive (.object holder) = true ∧ machine.world.Edge holder id := by
  obtain ⟨place, object, same, found⟩ := World.object_of_alive alive
  cases same
  have counted : 0 < object.refCount := by
    apply Nat.pos_of_ne_zero
    intro spent
    have awaited := settling.awaited id ⟨object, found, spent⟩
    rw [World.Awaited, idle, empty] at awaited
    simp at awaited
  have balance := settling.balance id
  have nothing : machine.carried = [] := by simp [carried, idle]
  rw [nothing, World.surplus, World.references_of_get id found] at balance
  simp only [List.count_nil, Bool.false_eq_true, if_false] at balance
  by_cases byClient : .object id ∈ owned
  · exact .inl (.owned byClient)
  · have unowned := List.count_eq_zero.2 byClient
    have held : 0 < machine.world.tally id := by omega
    rcases World.exists_holder_of_tally agree held with byClass | byName | holder
    · exact .inl (.prototype byClass)
    · exact .inl (.client byName)
    · exact .inr holder

theorem Settling.alive_of_root (settling : machine.Settling owned false) {id : ObjectId}
    (root : machine.world.Root owned id) : machine.world.isAlive (.object id) = true := by
  cases root with
  | owned listed =>
      have balance := settling.balance id
      have present := List.count_pos_iff.2 listed
      have referenced : 0 < machine.world.references id := by
        unfold World.surplus at balance
        omega
      obtain ⟨object, count, found, -⟩ := World.object_of_references referenced
      simp [World.isAlive, World.object?, Value.object?, found]
  | client held =>
      apply World.alive_of_tally settling.covered
      have present := List.count_pos_iff.2 held
      unfold World.tally
      omega
  | prototype defined =>
      apply World.alive_of_tally settling.covered
      have present := List.count_pos_iff.2 defined
      unfold World.tally
      omega

theorem Settling.alive_of_reaches (settling : machine.Settling owned false) {root id : ObjectId}
    (isRoot : machine.world.Root owned root) (path : machine.world.Reaches root id) :
    machine.world.isAlive (.object id) = true := by
  induction path with
  | refl => exact settling.alive_of_root isRoot
  | tail _ edge _ => exact World.alive_of_edge settling.covered edge

/-- Tables and slots agree throughout the runs of an honest client. -/
theorem Ledgered.agree (ledgered : Ledgered machine owned) {bridgeId : BridgeId} {bridge : Bridge}
    (found : machine.world.bridge? bridgeId = some bridge)
    (room : bridge.states.capacity ≤ 2 ^ 32) :
    machine.world.OneToOne bridge.classId bridge.states := by
  have tidy := ledgered.settled.2.calm.tidy
  have orderly := (ledgered.reachable bridge.classId).orderly tidy.running
  exact orderly.bound.agree bridgeId bridge (World.serves_of_tidy tidy found room)

/-- Nothing waits where objects are reclaimed at once, and after a collection. -/
theorem Ledgered.backlog_empty (ledgered : Ledgered machine owned)
    (swept : machine.world.engine.mode = .immediate ∨ machine.Collected) :
    machine.world.engine.backlog.items = [] := by
  rcases swept with immediate | collected
  · exact ledgered.settled.2.prompt immediate
  · exact collected.empty

theorem Ledgered.reached (ledgered : Ledgered machine owned)
    (swept : machine.world.engine.mode = .immediate ∨ machine.Collected)
    (room : ∀ id bridge, machine.world.bridge? id = some bridge →
      bridge.states.capacity ≤ 2 ^ 32) {id : ObjectId}
    (alive : machine.world.isAlive (.object id) = true) :
    (∃ root, machine.world.Root owned root ∧ machine.world.Reaches root id) ∨
      ∃ place, machine.world.Cyclic place ∧ machine.world.Reaches place id := by
  obtain ⟨idle, settling⟩ := ledgered.settled
  have empty := ledgered.backlog_empty swept
  refine reached_or_cyclic (World.finite_alive machine.world) ?_ alive
  intro node
  exact settling.exists_holder idle empty
    fun id bridge found => ⟨room id bridge found, ledgered.agree found (room id bridge found)⟩

theorem Ledgered.handle_of_state (ledgered : Ledgered machine owned)
    (room : ∀ id bridge, machine.world.bridge? id = some bridge →
      bridge.states.capacity ≤ 2 ^ 32) {bridge : BridgeId} {key : Key} {state : SignalState}
    (held : machine.world.state? bridge key = some state) :
    ∃ handle, machine.world.boundState bridge (.object handle) = .ok (key, state) := by
  obtain ⟨found, reached, inSlot⟩ := World.bridge_of_state held
  exact World.exists_handle_of_state reached (ledgered.agree reached (room _ _ reached)) inSlot

end Runs

/-- Between the requests of an honest client, where objects are reclaimed at once, and after
a collection, where they wait for one, nothing was freed too early and only cycles leak. It
takes that 32 bits number the slots of every table, or two states would have one key. -/
theorem leak_free_of_ledgered {machine : Machine} {owned : List Value}
    (ledgered : Ledgered machine owned)
    (swept : machine.world.engine.mode = .immediate ∨ machine.Collected)
    (room : ∀ id bridge, machine.world.bridge? id = some bridge →
      bridge.states.capacity ≤ 2 ^ 32) : machine.world.LeakFree owned := by
  have settling := ledgered.settled.2
  have states : (∀ id, .object id ∉ owned) →
      (∀ id, .object id ∉ machine.world.clientReferences) → (∀ id, ¬machine.world.Cyclic id) →
      ∀ bridge key state, machine.world.state? bridge key = some state →
        ∃ handle root, machine.world.boundState bridge (.object handle) = .ok (key, state) ∧
          .object root ∈ machine.world.classReferences ∧ machine.world.Reaches root handle := by
    intro unowned unheld acyclic bridge key state held
    obtain ⟨handle, bound⟩ := ledgered.handle_of_state room held
    have alive := World.alive_of_bound bound
    obtain ⟨root, defined, path⟩ :=
      World.prototype_reaches unowned unheld acyclic (ledgered.reached swept room alive)
    exact ⟨handle, root, bound, defined, path⟩
  refine ⟨fun root id => settling.alive_of_reaches, fun id => ledgered.reached swept room,
    ?_, states, ?_⟩
  · intro unowned unheld acyclic id
    constructor
    · intro alive
      exact World.prototype_reaches unowned unheld acyclic (ledgered.reached swept room alive)
    · rintro ⟨root, defined, path⟩
      exact settling.alive_of_reaches (.prototype defined) path
  · intro unowned unheld acyclic id unreached
    cases found : machine.world.bridge? id with
    | none => simp [World.liveStates, found]
    | some bridge =>
        have agree := ledgered.agree found (room id bridge found)
        apply World.live_states_of_no_state found (room id bridge found) agree.sound
        intro key state held
        obtain ⟨handle, root, bound, defined, path⟩ :=
          states unowned unheld acyclic id key state held
        have unbound := unreached root handle defined path
        simp [World.isBound, bound, Except.isOk, Except.toBool] at unbound

/-- A Signal with a callback, which is its link as well, is left with the prototype of its class.
Another Signal is given up, and the client keeps nothing. -/
def sharedSignal : Machine :=
  runAll 20 (start .deferred)
    [.act "install" (.bridge (.install "signals" {})) none,
      .act "function" (.object (.createFunction "listener")) (some "listener"),
      .act "construct" (.bridge (.enter "signals" .construct (.literal .undefined)
        [.register "listener"])) (some "signal"),
      .act "connect" (.bridge (.enter "signals" .connect (.register "signal")
        [.register "listener"])) none,
      .act "spare" (.bridge (.enter "signals" .construct (.literal .undefined)
        [.register "listener"])) (some "spare"),
      .act "prototype" (.classes (.prototype ⟨0⟩)) (some "prototype"),
      .act "share" (.object (.setProperty (.register "prototype") "shared" (.register "signal")))
        none,
      .act "release" (.object (.release (.register "prototype"))) none,
      .act "release" (.object (.release (.register "listener"))) none,
      .act "release" (.object (.release (.register "spare"))) none]

theorem ledgered_shared_signal : Ledgered sharedSignal [.int 0] :=
  (Ledgered.start .deferred).run_all (by simp [Step.Offered, Command.Offered]) rfl

def collection : List Step := [.act "collect" (.object .collect) none]

theorem leak_free_of_shared_signal :
    sharedSignal.world.engine.finalized = 0 ∧
      (runAll 20 sharedSignal collection).world.engine.finalized = 1 ∧
      (runAll 20 sharedSignal collection).world.liveStates ⟨0⟩ = 1 ∧
      (runAll 20 sharedSignal collection).world.Edge ⟨0⟩ ⟨2⟩ ∧
      (runAll 20 sharedSignal collection).world.Edge ⟨2⟩ ⟨1⟩ ∧
      (runAll 20 sharedSignal collection).world.LeakFree [.int 0] := by
  have ledgered : Ledgered (runAll 20 sharedSignal collection) [.int 0] :=
    ledgered_shared_signal.run_all (by simp [collection, Step.Offered, Command.Offered]) rfl
  have collected : (runAll 20 sharedSignal collection).Collected :=
    ⟨sharedSignal, _, "collect", none, ledgered_shared_signal, 20, rfl, rfl⟩
  refine ⟨rfl, rfl, rfl, .owned rfl (by decide), @World.Edge.held _ _ _ ⟨0⟩ _ _ rfl (by decide), ?_⟩
  refine leak_free_of_ledgered ledgered (.inr collected) ?_
  intro id bridge found
  cases World.bridge_of_single rfl found
  cases found
  decide

end Machine

end ScriptSignal
