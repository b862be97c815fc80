import ScriptSignal.Proofs.Keys
import ScriptSignal.Proofs.Moves

/-!
# What moves keep

No move takes an object out or gives a reference back, and each is fair to the strong
references: what was acquired was given back, or is stored, or is in hand. A bridge that nobody
holds has no states, unless it is still to be taken down.
-/

namespace ScriptSignal

set_option autoImplicit false

namespace World

def reported (world : World) (event : Event) : Nat := world.events.toList.count event

theorem reported_emit (world : World) (told event : Event) :
    (world.emit told).reported event =
      world.reported event + if told = event then 1 else 0 := by
  unfold reported emit
  rw [Array.toList_push, List.count_append, List.count_singleton]
  simp only [beq_iff_eq]

theorem reported_other (world : World) {told event : Event} (other : told ≠ event) :
    (world.emit told).reported event = world.reported event := by
  rw [reported_emit, if_neg other, Nat.add_zero]

/-- What tells nothing about a strong reference leaves its events as they are. -/
theorem reported_aside (world : World) {told event : Event} (aside : told.Aside)
    (custody : ¬event.Aside) : (world.emit told).reported event = world.reported event := by
  apply reported_other
  rintro rfl
  exact custody aside

def Gone (world : World) (id : ObjectId) : Prop :=
  id.index < world.size ∧ world.engine.heap.get? id = none

theorem holds_bridge_iff {world : World} {id : BridgeId} :
    world.holdsBridge id = true ↔ id ∈ world.client.bridges.values ∨
      ∃ bridge, world.bridge? id = some bridge ∧
        (bridge.installed = true ∧ world.engine.running = true ∨ 0 < bridge.active) := by
  simp [holdsBridge, Option.any_eq_true]

theorem bridge_of_modify {world : World} {place id : BridgeId} {change : Bridge → Bridge}
    {later : Bridge} (found : (world.modifyBridge place change).bridge? id = some later) :
    ∃ bridge, world.bridge? id = some bridge ∧
      later = if id = place then change bridge else bridge := by
  rw [bridge_modify] at found
  split at found
  · rename_i same
    obtain ⟨bridge, reached, rfl⟩ := Option.map_eq_some_iff.1 found
    exact ⟨bridge, same ▸ reached, (if_pos same).symm⟩
  · rename_i apart
    exact ⟨later, found, (if_neg apart).symm⟩

/-- No object is taken out, and none loses its last reference. -/
structure Gentle (before after : World) : Prop where
  mode : after.engine.mode = before.engine.mode
  running : after.engine.running = before.engine.running
  backlog : after.engine.backlog = before.engine.backlog
  finalized : after.engine.finalized = before.engine.finalized
  size : before.size ≤ after.size
  gone : ∀ id, after.Gone id ↔ before.Gone id
  spent : ∀ id, after.Spent id → before.Spent id
  /-- An engine that was torn down stays as it is. -/
  stopped : before.engine = .stopped before.engine.mode → after.engine = before.engine

theorem Gentle.refl (world : World) : Gentle world world :=
  ⟨rfl, rfl, rfl, rfl, Nat.le_refl _, fun _ => .rfl, fun _ spent => spent, fun _ => rfl⟩

theorem Gentle.trans {before middle after : World} (first : Gentle before middle)
    (second : Gentle middle after) : Gentle before after where
  mode := second.mode.trans first.mode
  running := second.running.trans first.running
  backlog := second.backlog.trans first.backlog
  finalized := second.finalized.trans first.finalized
  size := Nat.le_trans first.size second.size
  gone := fun id => (second.gone id).trans (first.gone id)
  spent := fun id spent => first.spent id (second.spent id spent)
  stopped := by
    intro stopped
    have same := first.stopped stopped
    rw [second.stopped (by rw [same, stopped]; rfl), same]

theorem gentle_of_engine {before after : World} (same : after.engine = before.engine) :
    Gentle before after := by
  have size : after.size = before.size := by
    unfold size
    rw [same]
  refine ⟨by rw [same], by rw [same], by rw [same], by rw [same], Nat.le_of_eq size.symm, ?_, ?_,
    fun _ => same⟩
  · intro id
    unfold Gone
    rw [size, same]
  · rintro id ⟨object, found, last⟩
    exact ⟨object, same ▸ found, last⟩

theorem gentle_put {world : World} {id : ObjectId} {object changed : Object}
    (found : world.engine.heap.get? id = some object)
    (counted : object.refCount ≤ changed.refCount) : Gentle world (world.putObject id changed) := by
  have reads : ∀ other, (world.putObject id changed).engine.heap.get? other =
      if other = id then some changed else world.engine.heap.get? other := by
    intro other
    split
    · rename_i same
      subst same
      exact Heap.get_put_same found changed
    · rename_i apart
      exact Heap.get_put_other _ apart changed
  refine ⟨rfl, rfl, rfl, rfl, Nat.le_of_eq (size_put world id changed).symm, ?_, ?_, ?_⟩
  · intro other
    unfold Gone
    rw [size_put, reads]
    split
    · rename_i same
      simp [same, found]
    · rfl
  · rintro other ⟨held, reached, last⟩
    rw [reads] at reached
    split at reached
    · rename_i same
      cases reached
      exact ⟨object, same ▸ found, by omega⟩
    · exact ⟨held, reached, last⟩
  · intro stopped
    rw [stopped] at found
    simp [Engine.stopped, Engine.start, Heap.empty, Heap.get?] at found

theorem gentle_allocate {world : World} (kind : ObjectKind) (proto : Option ObjectId)
    (running : world.engine.running = true) : Gentle world (world.allocate kind proto) := by
  have size := size_allocate world kind proto
  refine ⟨rfl, rfl, rfl, rfl, by omega, ?_, ?_, ?_⟩
  · intro id
    unfold Gone
    by_cases new : id = world.engine.heap.nextId
    · subst new
      have made : (world.allocate kind proto).engine.heap.get? world.engine.heap.nextId =
          some ⟨1, kind, proto, .empty⟩ := Heap.get_alloc_same _ kind proto
      have place : world.engine.heap.nextId.index = world.size := rfl
      simp [made, place]
    · have kept : (world.allocate kind proto).engine.heap.get? id = world.engine.heap.get? id :=
        Heap.get_alloc_other _ kind proto new
      have apart : id.index ≠ world.size := by
        intro same
        exact new (congrArg ObjectId.mk same)
      rw [kept, size]
      exact and_congr_left fun _ => by omega
  · rintro id ⟨object, found, last⟩
    by_cases new : id = world.engine.heap.nextId
    · subst new
      have made : (world.allocate kind proto).engine.heap.get? world.engine.heap.nextId =
          some ⟨1, kind, proto, .empty⟩ := Heap.get_alloc_same _ kind proto
      rw [made] at found
      cases found
      cases last
    · have kept : (world.allocate kind proto).engine.heap.get? id = world.engine.heap.get? id :=
        Heap.get_alloc_other _ kind proto new
      exact ⟨object, kept.symm.trans found, last⟩
  · intro stopped
    rw [stopped] at running
    cases running

end World

theorem Move.gentle {inscribes : Prop} {grasp after : Grasp} (move : Move inscribes grasp after) :
    World.Gentle grasp.world after.world := by
  cases move with
  | put found counted => exact World.gentle_put found counted
  | @allocate kind proto running => exact World.gentle_allocate kind proto running
  | @register registry _ running served =>
      refine ⟨rfl, rfl, rfl, rfl, Nat.le_refl _, fun _ => .rfl, fun _ spent => spent, ?_⟩
      intro stopped
      rw [stopped] at running
      cases running
  | _ => exact World.gentle_of_engine rfl

theorem Moves.gentle {inscribes : Prop} {grasp after : Grasp}
    (moves : Moves inscribes grasp after) :
    World.Gentle grasp.world after.world := by
  induction moves with
  | refl => exact .refl _
  | tail _ move induction => exact induction.trans move.gentle

section Bridges

variable {inscribes : Prop} {grasp after : Grasp} {id : BridgeId}

theorem Move.holds (move : Move inscribes grasp after) (distinct : grasp.world.client.Distinct)
    (holds : grasp.world.holdsBridge id = true) :
    after.world.holdsBridge id = true ∨ id ∈ after.left := by
  rw [World.holds_bridge_iff] at holds ⊢
  rcases holds with named | ⟨bridge, found, held⟩
  · cases move with
    | client distinctAfter kept stays waits known =>
        exact (stays distinct id named).imp_left .inl
    | _ => exact .inl (.inl named)
  · obtain ⟨later, reached, installed, active⟩ := move.bridge found
    have running := move.gentle.running
    refine .inl (.inr ⟨later, reached, ?_⟩)
    rw [installed, running]
    exact held.imp_right fun busy => Nat.lt_of_lt_of_le busy active

theorem Move.sound (move : Move inscribes grasp after)
    (sound : ∀ id bridge, grasp.world.bridge? id = some bridge →
      grasp.world.holdsBridge id = true → bridge.states.Sound) {bridge : Bridge}
    (found : after.world.bridge? id = some bridge) (holds : after.world.holdsBridge id = true) :
    bridge.states.Sound := by
  have old : after.world.bridges = grasp.world.bridges →
      after.world.client.bridges = grasp.world.client.bridges → bridge.states.Sound := by
    intro bridges names
    have same : ∀ other, after.world.bridge? other = grasp.world.bridge? other := by
      intro other
      simp only [World.bridge?, bridges]
    refine sound id bridge ((same id).symm.trans found) ?_
    rw [World.holds_bridge_iff] at holds ⊢
    simpa only [names, same, move.gentle.running] using holds
  cases move with
  | addBridge classId config installed =>
      change (grasp.world.addBridge classId config installed).bridge? id = some bridge at found
      rw [World.bridge_add] at found
      split at found
      · cases found
        exact Slab.sound_empty
      · rename_i apart
        refine sound id bridge found ?_
        have reads : ∀ other, (grasp.world.addBridge classId config installed).bridge? other =
            if other = grasp.world.nextBridge then some ⟨classId, config, .empty, installed, 0⟩
            else grasp.world.bridge? other := World.bridge_add grasp.world classId config installed
        rw [World.holds_bridge_iff] at holds ⊢
        rcases holds with name | ⟨held, reached, busy⟩
        · exact .inl name
        · exact .inr ⟨held, by rwa [reads, if_neg apart] at reached, busy⟩
  | @beginCall place name =>
      obtain ⟨old, reached, same⟩ := World.bridge_of_modify found
      have states : bridge.states = old.states := by
        rw [same]
        split <;> rfl
      rw [states]
      refine sound id old reached (World.holds_bridge_iff.2 ?_)
      rcases World.holds_bridge_iff.1 holds with named | ⟨held, again, busy⟩
      · exact .inl named
      · by_cases here : id = place
        · exact .inl (here ▸ name)
        · obtain rfl : bridge = held := Option.some.inj (found.symm.trans again)
          rw [if_neg here] at same
          exact .inr ⟨old, reached, same ▸ busy⟩
  | @table place change held keeps owned kept =>
      obtain ⟨old, reached, same⟩ := World.bridge_of_modify found
      have before : old.states.Sound := by
        refine sound id old reached (World.holds_bridge_iff.2 ?_)
        rcases World.holds_bridge_iff.1 holds with named | ⟨held, again, busy⟩
        · exact .inl named
        · obtain rfl : bridge = held := Option.some.inj (found.symm.trans again)
          have parts : bridge.installed = old.installed ∧ bridge.active = old.active := by
            rw [same]
            split <;> exact ⟨rfl, rfl⟩
          exact .inr ⟨old, reached, by rwa [parts.1, parts.2] at busy⟩
      rw [same]
      split
      · exact keeps old.states before
      · exact before
  | @client client held left distinct kept stays waits known =>
      rcases World.holds_bridge_iff.1 holds with named | under
      · rcases known id named with old | ⟨stored, reached, fresh⟩
        · exact sound id bridge found (World.holds_bridge_iff.2 (.inl old))
        · cases found.symm.trans reached
          exact fresh
      · exact sound id bridge found (World.holds_bridge_iff.2 (.inr under))
  | _ => exact old rfl rfl

end Bridges

/-- The strong references of a value that were acquired have been given back, are stored, or
are in hand. -/
def Grasp.Balanced (grasp : Grasp) (value : Value) : Prop :=
  grasp.world.reported (.acquired value) =
    grasp.world.reported (.released value) + grasp.world.reported (.hostGone value)
      + grasp.world.tableReferences.count value + grasp.world.clientReferences.count value
      + grasp.held.count value

structure Grasp.Kept (grasp : Grasp) : Prop where
  distinct : grasp.world.client.Distinct
  named : ∀ id ∈ grasp.world.client.bridges.values, (grasp.world.bridge? id).isSome
  sound : ∀ id bridge, grasp.world.bridge? id = some bridge →
    grasp.world.holdsBridge id = true → bridge.states.Sound
  served : grasp.world.Served
  balanced : ∀ value, grasp.Balanced value
  /-- A bridge that nobody holds has no states, or is to be taken down. -/
  cleared : ∀ id bridge, grasp.world.bridge? id = some bridge →
    grasp.world.holdsBridge id = true ∨ bridge.states.entries = [] ∨ id ∈ grasp.left
  active : ∀ id, grasp.calls.count id ≤ (grasp.world.bridge? id).elim 0 Bridge.active

section Kept

variable {inscribes : Prop} {grasp after : Grasp}

theorem Grasp.Kept.present (kept : grasp.Kept) {id : BridgeId}
    (owned : grasp.world.holdsBridge id = true ∨ ∃ key, (grasp.world.state? id key).isSome) :
    (grasp.world.bridge? id).isSome := by
  rcases owned with holds | ⟨key, reached⟩
  · rcases World.holds_bridge_iff.1 holds with named | ⟨bridge, found, -⟩
    · exact kept.named id named
    · simp [found]
  · cases found : grasp.world.bridge? id with
    | none => simp [World.state?, found] at reached
    | some bridge => rfl

theorem Move.named (move : Move inscribes grasp after)
    (named : ∀ id ∈ grasp.world.client.bridges.values, (grasp.world.bridge? id).isSome)
    {id : BridgeId} (member : id ∈ after.world.client.bridges.values) :
    (after.world.bridge? id).isSome := by
  have old : (grasp.world.bridge? id).isSome := by
    cases move with
    | client distinct kept stays waits known =>
        rcases known id member with before | ⟨bridge, found, -⟩
        · exact named id before
        · simp [found]
    | _ => exact named id member
  obtain ⟨bridge, found⟩ := Option.isSome_iff_exists.1 old
  obtain ⟨later, reached, -⟩ := move.bridge found
  simp [reached]

theorem Move.distinct (move : Move inscribes grasp after) (distinct : grasp.world.client.Distinct) :
    after.world.client.Distinct := by
  cases move with
  | client keeps kept stays waits known => exact keeps distinct
  | _ => exact distinct

theorem NativeFunction.Served.move (move : Move inscribes grasp after) {function : NativeFunction}
    (served : function.Served grasp.world) : function.Served after.world := by
  cases function with
  | signal bridge entry =>
      exact (Moves.installed (.single move) served : after.world.Installed bridge)
  | script body => trivial

theorem ClassRecord.Served.move (move : Move inscribes grasp after) {record : ClassRecord}
    (served : record.Served grasp.world) : record.Served after.world :=
  ⟨served.constructor.move move, fun name function found =>
    (served.methods name function found).move move⟩

theorem Move.served (move : Move inscribes grasp after) (served : grasp.world.Served) :
    after.world.Served := by
  intro classId record found
  have old : record.Served grasp.world := by
    cases move with
    | register inscribed running fresh =>
        rcases fresh classId record found with before | new
        · exact served classId record before
        · exact new
    | _ => exact served classId record found
  exact old.move move

theorem Move.balanced (move : Move inscribes grasp after) (kept : grasp.Kept) (value : Value) :
    after.Balanced value := by
  have balanced := kept.balanced value
  unfold Grasp.Balanced at balanced ⊢
  cases move with
  | emit aside =>
      rw [World.reported_aside _ aside id, World.reported_aside _ aside id,
        World.reported_aside _ aside id]
      exact balanced
  | acquire acquired running =>
      have tables : (grasp.world.emit (.acquired acquired)).tableReferences =
          grasp.world.tableReferences := rfl
      have client : (grasp.world.emit (.acquired acquired)).clientReferences =
          grasp.world.clientReferences := rfl
      rw [World.reported_emit, World.reported_other _ (by simp), World.reported_other _ (by simp),
        List.count_cons, tables, client]
      by_cases same : acquired = value
      · simp only [same, beq_self_eq_true, if_true]
        omega
      · simp only [Event.acquired.injEq, same, beq_iff_eq, if_false]
        omega
  | addBridge classId config installed =>
      have tables : (grasp.world.addBridge classId config installed).tableReferences =
          grasp.world.tableReferences := by
        simp [World.tableReferences, World.addBridge, Slab.empty, Slab.entries]
      rw [tables]
      exact balanced
  | @beginCall place named =>
      obtain ⟨bridge, found⟩ := Option.isSome_iff_exists.1 (kept.named place named)
      have tables := World.count_tables_modify found
        (fun bridge => { bridge with active := bridge.active + 1 }) value
      have same : (grasp.world.beginCall place).tableReferences.count value =
          grasp.world.tableReferences.count value := Nat.add_right_cancel tables
      dsimp only
      rw [same]
      exact balanced
  | @table place change held sound owned moved =>
      obtain ⟨bridge, found⟩ := Option.isSome_iff_exists.1 (kept.present owned)
      have tables := World.count_tables_modify found
        (fun bridge => { bridge with states := change bridge.states }) value
      have exchanged := moved bridge found (kept.sound place bridge found) value
      have events : ∀ event, (grasp.world.modifyStates place change).reported event =
        grasp.world.reported event := fun _ => rfl
      have client : (grasp.world.modifyStates place change).clientReferences =
        grasp.world.clientReferences := rfl
      have written : (grasp.world.modifyStates place change).tableReferences =
        (grasp.world.modifyBridge place fun bridge =>
          { bridge with states := change bridge.states }).tableReferences := rfl
      dsimp only at tables ⊢
      rw [events, events, events, client, written]
      omega
  | @client client held left distinct moved stays waits known =>
      have exchanged := moved kept.distinct value
      have events : ∀ event, ({ grasp.world with client } : World).reported event =
        grasp.world.reported event := fun _ => rfl
      have tables : ({ grasp.world with client } : World).tableReferences =
        grasp.world.tableReferences := rfl
      dsimp only at exchanged ⊢
      rw [events, events, events, tables]
      omega
  | _ => exact balanced

theorem Move.waits (move : Move inscribes grasp after) {id : BridgeId} (waits : id ∈ grasp.left) :
    id ∈ after.left := by
  cases move with
  | client distinct kept stays keeps known => exact keeps id waits
  | _ => exact waits

theorem Move.cleared (move : Move inscribes grasp after) (kept : grasp.Kept) {id : BridgeId}
    {bridge : Bridge} (found : after.world.bridge? id = some bridge) :
    after.world.holdsBridge id = true ∨ bridge.states.entries = [] ∨ id ∈ after.left := by
  have onward : ∀ old, grasp.world.bridge? id = some old →
      (old.states.entries = [] → bridge.states.entries = []) →
      after.world.holdsBridge id = true ∨ bridge.states.entries = [] ∨ id ∈ after.left := by
    intro old reached empty
    rcases kept.cleared id old reached with holds | cleared | waits
    · exact (move.holds kept.distinct holds).imp_right .inr
    · exact .inr (.inl (empty cleared))
    · exact .inr (.inr (move.waits waits))
  cases move with
  | addBridge classId config installed =>
      change (grasp.world.addBridge classId config installed).bridge? id = some bridge at found
      rw [World.bridge_add] at found
      split at found
      · cases found
        exact .inr (.inl rfl)
      · exact onward bridge found fun empty => empty
  | @beginCall place named =>
      obtain ⟨old, reached, same⟩ := World.bridge_of_modify found
      refine onward old reached fun empty => ?_
      rw [same]
      split <;> exact empty
  | @table place change held sound owned moved =>
      obtain ⟨old, reached, same⟩ := World.bridge_of_modify found
      by_cases here : id = place
      · subst here
        rcases owned with holds | ⟨key, filled⟩
        · have move : Move inscribes grasp _ := .table sound (.inl holds) moved
          exact (move.holds kept.distinct holds).imp_right .inr
        · refine onward old reached fun empty => ?_
          obtain ⟨state, entry⟩ := Option.isSome_iff_exists.1 filled
          have stored : old.states.get? key = some state := by
            simpa [World.state?, reached] using entry
          have listed := Slab.mem_entries_of_get stored
          rw [empty] at listed
          cases listed
      · rw [if_neg here] at same
        exact onward old reached fun empty => same ▸ empty
  | _ => exact onward bridge found fun empty => empty

theorem Move.active (move : Move inscribes grasp after) (kept : grasp.Kept) (id : BridgeId) :
    after.calls.count id ≤ (after.world.bridge? id).elim 0 Bridge.active := by
  have before := kept.active id
  have onward : after.calls = grasp.calls →
      after.calls.count id ≤ (after.world.bridge? id).elim 0 Bridge.active := by
    intro same
    rw [same]
    cases found : grasp.world.bridge? id with
    | none =>
        rw [found] at before
        exact Nat.le_trans before (Nat.zero_le _)
    | some bridge =>
        rw [found] at before
        obtain ⟨later, reached, -, active⟩ := move.bridge found
        rw [reached]
        exact Nat.le_trans before active
  cases move with
  | @beginCall place named =>
      change (place :: grasp.calls).count id ≤
        ((grasp.world.beginCall place).bridge? id).elim 0 Bridge.active
      rw [World.beginCall, World.bridge_modify, List.count_cons]
      by_cases here : id = place
      · subst here
        obtain ⟨bridge, found⟩ := Option.isSome_iff_exists.1 (kept.named id named)
        simpa [found] using before
      · simpa [here, Ne.symm here] using before
  | _ => exact onward rfl

theorem Move.kept (move : Move inscribes grasp after) (kept : grasp.Kept) : after.Kept where
  distinct := move.distinct kept.distinct
  named := fun _ member => move.named kept.named member
  sound := fun _ _ found holds => move.sound kept.sound found holds
  served := move.served kept.served
  balanced := move.balanced kept
  cleared := fun _ _ found => move.cleared kept found
  active := move.active kept

theorem Moves.kept (moves : Moves inscribes grasp after) (kept : grasp.Kept) : after.Kept := by
  induction moves with
  | refl => exact kept
  | tail _ move induction => exact move.kept induction

theorem World.Served.of_same {before later : World} (served : before.Served)
    (registry : later.engine.registry = before.engine.registry)
    (bridges : ∀ id, before.Installed id → later.Installed id) : later.Served := by
  have functions : ∀ function : NativeFunction, function.Served before → function.Served later := by
    intro function enters
    cases function with
    | signal bridge entry => exact bridges bridge enters
    | script body => trivial
  intro classId record found
  rw [registry] at found
  have old := served classId record found
  exact ⟨functions _ old.constructor, fun name function method =>
    functions function (old.methods name function method)⟩

structure World.OnlyObjects (before after : World) : Prop where
  bridges : after.bridges = before.bridges
  client : after.client = before.client
  registry : after.engine.registry = before.engine.registry
  running : after.engine.running = before.engine.running
  reported : ∀ event, ¬event.Aside → after.reported event = before.reported event

theorem World.OnlyObjects.refl (world : World) : OnlyObjects world world :=
  ⟨rfl, rfl, rfl, rfl, fun _ _ => rfl⟩

theorem World.OnlyObjects.emit {before after : World} (only : OnlyObjects before after)
    {event : Event} (aside : event.Aside) : OnlyObjects before (after.emit event) :=
  ⟨only.bridges, only.client, only.registry, only.running, fun other custody =>
    (reported_aside after aside custody).trans (only.reported other custody)⟩

theorem World.only_objects_release (world : World) (value : Value) :
    OnlyObjects world (world.release value).1 := by
  cases value with
  | object id =>
      simp only [release, releaseObject]
      split
      · exact (OnlyObjects.refl world).emit trivial
      · rename_i object found
        split
        · exact (OnlyObjects.refl world).emit trivial
        · rename_i count counted
          have lowered : OnlyObjects world (world.putObject id { object with refCount := count }) :=
            ⟨rfl, rfl, rfl, rfl, fun _ _ => rfl⟩
          split
          · split
            · exact lowered
            · apply OnlyObjects.emit
              · exact ⟨rfl, rfl, rfl, rfl, fun _ _ => rfl⟩
              · trivial
          · exact lowered
  | _ => exact .refl world

/-- Only where objects are reclaimed at once does a release leave anything to do. -/
theorem World.reclaims_of_release (world : World) (value : Value) :
    (world.release value).2 = [] ∨ ∃ id, value = .object id ∧ world.engine.mode = .immediate ∧
      (world.release value).2 = [.reclaim id] := by
  cases value with
  | object id =>
      by_cases held : 0 < world.references id
      · obtain ⟨object, count, found, counted⟩ := object_of_references held
        cases mode : world.engine.mode with
        | deferred =>
            left
            simp only [release, releaseObject, found, counted, putObject, mode]
            split <;> rfl
        | immediate =>
            rcases release_cases found counted with ⟨-, same⟩ | ⟨-, deferred, -⟩ | ⟨-, same⟩
            · exact .inr ⟨id, rfl, rfl, by rw [same]⟩
            · rw [mode] at deferred
              cases deferred
            · exact .inl (by rw [same])
      · obtain ⟨event, same⟩ := release_of_unreferenced (Nat.eq_zero_of_not_pos held)
        exact .inl (by rw [same])
  | _ => exact .inl rfl

theorem World.task_of_release {world : World} {value : Value} {task : Task}
    (member : task ∈ (world.release value).2) :
    ∃ id, value = .object id ∧ world.engine.mode = .immediate ∧ task = .reclaim id := by
  rcases reclaims_of_release world value with none | ⟨id, same, immediate, one⟩
  · rw [none] at member
    cases member
  · rw [one] at member
    exact ⟨id, same, immediate, List.mem_singleton.1 member⟩

theorem World.task_of_drop_reference {world : World} {held : StrongRef} {task : Task}
    (member : task ∈ (world.dropReference held).2) : task = .release held.value := by
  unfold dropReference at member
  split at member
  · exact List.mem_singleton.1 member
  · cases member

theorem World.task_of_finalizer {world : World} {id : ObjectId} {task : Task}
    (member : task ∈ (world.runFinalizer id).2) : (∃ held, task = .drop held) ∨
      ∃ body receiver arguments, task = .enter body receiver arguments .finalize := by
  unfold runFinalizer at member
  split at member
  · cases member
  · split at member
    · exact .inl (drops_of_finalize_signal world _ _ task member)
    · exact .inr ⟨_, _, _, List.mem_singleton.1 member⟩

theorem World.task_of_drain {world : World} {count : Nat} {task : Task}
    (member : task ∈ (world.drain count).2) :
    (∃ id, task = .reclaim id) ∨ task = .drain (count + 1) := by
  unfold drain at member
  split at member
  · rcases List.mem_cons.1 member with first | later
    · exact .inl ⟨_, first⟩
    · exact .inr (List.mem_singleton.1 later)
  · cases member

theorem World.task_of_collect {world : World} {task : Task} (member : task ∈ world.collect.2) :
    task = .drain 0 ∨ task = .reportCollection world.engine.finalized := by
  unfold collect at member
  dsimp only at member
  split at member
  · rcases List.mem_cons.1 member with first | later
    · exact .inl first
    · exact .inr (List.mem_singleton.1 later)
  · exact .inr (List.mem_singleton.1 member)

theorem World.engine_drop_reference (world : World) (held : StrongRef) :
    (world.dropReference held).1.engine = world.engine := by
  unfold dropReference
  split <;> rfl

theorem World.only_objects_remove_object (world : World) (id : ObjectId) :
    OnlyObjects world (world.removeObject id).1 := by
  rcases remove_object_cases world id with ⟨-, same⟩ | ⟨object, -, same⟩
  · rw [same]
    exact .refl world
  · rw [same]
    apply OnlyObjects.emit
    · exact ⟨rfl, rfl, rfl, rfl, fun _ _ => rfl⟩
    · trivial

theorem World.only_objects_drain (world : World) (count : Nat) :
    OnlyObjects world (world.drain count).1 := by
  unfold drain
  split
  · exact ⟨rfl, rfl, rfl, rfl, fun _ _ => rfl⟩
  · have told : (Event.processed count).Aside := trivial
    dsimp only
    split
    · exact (OnlyObjects.refl world).emit told
    · exact .refl world

theorem Grasp.Kept.of_same {world later : World} {held : List Value} {left calls : List BridgeId}
    (kept : Grasp.Kept ⟨world, held, left, calls⟩) (only : world.OnlyObjects later) :
    Grasp.Kept ⟨later, held, left, calls⟩ := by
  obtain ⟨bridges, client, registry, running, reported⟩ := only
  have found : ∀ id, later.bridge? id = world.bridge? id := by
    intro id
    simp only [World.bridge?, bridges]
  have holds : ∀ id, later.holdsBridge id = world.holdsBridge id := by
    intro id
    simp only [World.holdsBridge, found, client, running]
  have tables : later.tableReferences = world.tableReferences := by
    simp only [World.tableReferences, bridges]
  have names : later.clientReferences = world.clientReferences := by
    simp only [World.clientReferences, client]
  refine ⟨client ▸ kept.distinct, ?_, ?_, ?_, ?_, ?_, ?_⟩
  · intro id member
    rw [found]
    exact kept.named id (client ▸ member)
  · intro id bridge reached held
    exact kept.sound id bridge ((found id).symm.trans reached) ((holds id).symm.trans held)
  · refine kept.served.of_same registry fun id installed => ?_
    obtain ⟨bridge, reached, same⟩ := installed
    exact ⟨bridge, (found id).trans reached, same⟩
  · intro value
    have balanced := kept.balanced value
    unfold Grasp.Balanced at balanced ⊢
    dsimp only at balanced ⊢
    rw [reported _ id, reported _ id, reported _ id, tables, names]
    exact balanced
  · intro id bridge reached
    rw [holds]
    exact kept.cleared id bridge ((found id).symm.trans reached)
  · intro id
    rw [found]
    exact kept.active id

/-- A strong reference in hand is given back, or was held longer than the engine. -/
theorem Grasp.Kept.letGo {world : World} {held : List Value} {left calls : List BridgeId}
    {value : Value} (kept : Grasp.Kept ⟨world, value :: held, left, calls⟩) {event : Event}
    (told : event = .released value ∨ event = .hostGone value) :
    Grasp.Kept ⟨world.emit event, held, left, calls⟩ := by
  refine ⟨kept.distinct, kept.named, kept.sound,
    kept.served.of_same rfl fun _ installed => installed, ?_, kept.cleared, kept.active⟩
  intro other
  have balanced := kept.balanced other
  have tables : (world.emit event).tableReferences = world.tableReferences := rfl
  have client : (world.emit event).clientReferences = world.clientReferences := rfl
  unfold Grasp.Balanced at balanced ⊢
  dsimp only at balanced ⊢
  rw [List.count_cons] at balanced
  rw [tables, client]
  rcases told with rfl | rfl
  · rw [World.reported_other world (by simp), World.reported_emit,
      World.reported_other world (by simp)]
    by_cases same : value = other
    · simp only [same, beq_self_eq_true, if_true] at balanced ⊢
      omega
    · simp only [Event.released.injEq, same, beq_iff_eq, if_false] at balanced ⊢
      omega
  · rw [World.reported_other world (by simp), World.reported_other world (by simp),
      World.reported_emit]
    by_cases same : value = other
    · simp only [same, beq_self_eq_true, if_true] at balanced ⊢
      omega
    · simp only [Event.hostGone.injEq, same, beq_iff_eq, if_false] at balanced ⊢
      omega

theorem World.holds_modify_states (world : World) (id other : BridgeId)
    (change : Slab SignalState → Slab SignalState) :
    (world.modifyStates id change).holdsBridge other = world.holdsBridge other := by
  have named : (world.modifyStates id change).client = world.client := rfl
  have running : (world.modifyStates id change).engine = world.engine := rfl
  unfold World.holdsBridge
  rw [World.bridge_modify_states, named, running]
  split
  · rename_i same
    subst same
    cases world.bridge? other <;> rfl
  · rfl

/-- Emptying the table of a bridge that nobody holds takes its states in hand. -/
theorem Grasp.Kept.clear {world : World} {held : List Value} {left calls : List BridgeId}
    {id : BridgeId} (kept : Grasp.Kept ⟨world, held, id :: left, calls⟩)
    (free : world.holdsBridge id = false) :
    Grasp.Kept ⟨world.modifyStates id Slab.clear,
      ((world.bridge? id).elim [] fun bridge =>
        bridge.states.entries.flatMap SignalState.values) ++ held, left, calls⟩ := by
  have reads : ∀ other, (world.modifyStates id Slab.clear).bridge? other =
      if other = id then
        (world.bridge? id).map fun bridge => { bridge with states := bridge.states.clear }
      else world.bridge? other := World.bridge_modify_states world id Slab.clear
  have holds := World.holds_modify_states world id
  refine ⟨kept.distinct, ?_, ?_, ?_, ?_, ?_, ?_⟩
  · intro other member
    have present : (world.bridge? other).isSome := kept.named other member
    rw [reads]
    split
    · rename_i same
      subst same
      simpa using present
    · exact present
  · intro other bridge found held
    obtain ⟨old, reached, same⟩ := World.bridge_of_modify found
    have heldBefore : world.holdsBridge other = true := (holds other _).symm.trans held
    have apart : other ≠ id := by
      rintro rfl
      rw [free] at heldBefore
      cases heldBefore
    rw [if_neg apart] at same
    rw [same]
    exact kept.sound other old reached heldBefore
  · refine kept.served.of_same rfl fun other installed => ?_
    obtain ⟨bridge, found, same⟩ := installed
    by_cases here : other = id
    · subst here
      have emptied := reads other
      rw [if_pos rfl, show world.bridge? other = some bridge from found] at emptied
      exact ⟨_, emptied, same⟩
    · exact ⟨bridge, (reads other).trans (by rw [if_neg here, found]), same⟩
  · intro value
    have balanced := kept.balanced value
    have tables : (world.modifyStates id Slab.clear).tableReferences.count value
        + ((world.bridge? id).elim [] fun bridge =>
          bridge.states.entries.flatMap SignalState.values).count value =
        world.tableReferences.count value := by
      cases found : world.bridge? id with
      | none =>
          rw [World.modifyStates, World.modify_missing_bridge found]
          rfl
      | some bridge =>
          have moved := World.count_tables_modify found
            (fun bridge => { bridge with states := bridge.states.clear }) value
          rw [Slab.entries_clear, List.flatMap_nil, List.count_nil, Nat.add_zero] at moved
          exact moved
    have events : ∀ event, (world.modifyStates id Slab.clear).reported event =
      world.reported event := fun _ => rfl
    have names : (world.modifyStates id Slab.clear).clientReferences =
      world.clientReferences := rfl
    unfold Grasp.Balanced at balanced ⊢
    dsimp only at balanced ⊢
    rw [events, events, events, names, List.count_append]
    omega
  · intro other bridge found
    obtain ⟨old, reached, same⟩ := World.bridge_of_modify found
    by_cases here : other = id
    · rw [if_pos here] at same
      rw [same]
      exact .inr (.inl (Slab.entries_clear old.states))
    · rw [if_neg here] at same
      rw [same, holds]
      rcases kept.cleared other old reached with held | empty | waits
      · exact .inl held
      · exact .inr (.inl empty)
      · exact .inr (.inr ((List.mem_cons.1 waits).resolve_left here))
  · intro other
    have active := kept.active other
    rw [reads]
    split
    · rename_i same
      subst same
      cases found : world.bridge? other <;> simpa [found] using active
    · exact active

/-- To take a bridge down is to give up its states, unless somebody holds it. -/
theorem Grasp.Kept.settle {world : World} {held : List Value} {left calls : List BridgeId}
    {id : BridgeId} (kept : Grasp.Kept ⟨world, held, id :: left, calls⟩) :
    Grasp.Kept ⟨(world.settleBridge id).1,
      (world.settleBridge id).2.flatMap Task.clutched ++ held, left, calls⟩ := by
  by_cases holds : world.holdsBridge id = true
  · have same : world.settleBridge id = (world, []) := by simp [World.settleBridge, holds]
    rw [same]
    refine ⟨kept.distinct, kept.named, kept.sound, kept.served, kept.balanced, ?_, kept.active⟩
    intro other bridge found
    rcases kept.cleared other bridge found with heldStill | empty | waits
    · exact .inl heldStill
    · exact .inr (.inl empty)
    · rcases List.mem_cons.1 waits with rfl | later
      · exact .inl holds
      · exact .inr (.inr later)
  · have free : world.holdsBridge id = false := by simpa using holds
    have cleared := kept.clear free
    have values : (world.settleBridge id).2.flatMap Task.clutched =
        (world.bridge? id).elim [] fun bridge =>
          bridge.states.entries.flatMap SignalState.values := by
      simp only [World.settleBridge, free, Bool.false_eq_true, if_false, World.drops_eq_map,
        clutched_drops, World.values_of_states]
      cases world.bridge? id <;> rfl
    rw [values]
    simp only [World.settleBridge, free, Bool.false_eq_true, if_false]
    split
    · exact cleared
    · rename_i filled
      have told : (Event.bridgeDropped
          ((world.bridge? id).elim [] fun bridge => bridge.states.entries).length).Aside := trivial
      exact (@Move.emit True _ _ told).kept cleared

/-- A bridge on which a call ends is taken down, unless somebody still holds it. -/
theorem Grasp.Kept.endCall {world : World} {held : List Value} {left calls : List BridgeId}
    {id : BridgeId} (kept : Grasp.Kept ⟨world, held, left, id :: calls⟩) :
    Grasp.Kept ⟨(world.endCall id).1,
      (world.endCall id).2.flatMap Task.clutched ++ held, left, calls⟩ := by
  apply Grasp.Kept.settle
  have reads : ∀ other, (world.modifyBridge id fun bridge =>
      { bridge with active := bridge.active - 1 }).bridge? other =
        if other = id then
          (world.bridge? id).map fun bridge => { bridge with active := bridge.active - 1 }
        else world.bridge? other := World.bridge_modify world id _
  have holds : ∀ other, (world.modifyBridge id fun bridge =>
      { bridge with active := bridge.active - 1 }).holdsBridge other = true →
        world.holdsBridge other = true := by
    intro other held
    rw [World.holds_bridge_iff] at held ⊢
    apply held.imp_right
    rintro ⟨later, found, busy⟩
    obtain ⟨bridge, reached, same⟩ := World.bridge_of_modify found
    refine ⟨bridge, reached, ?_⟩
    rw [same] at busy
    split at busy
    · exact busy.imp_right fun positive => Nat.lt_of_lt_of_le positive (Nat.sub_le _ _)
    · exact busy
  refine ⟨kept.distinct, ?_, ?_, ?_, ?_, ?_, ?_⟩
  · intro other member
    have present : (world.bridge? other).isSome := kept.named other member
    rw [reads]
    split
    · rename_i same
      subst same
      simpa using present
    · exact present
  · intro other later found heldLater
    obtain ⟨bridge, reached, same⟩ := World.bridge_of_modify found
    have sound := kept.sound other bridge reached (holds other heldLater)
    rw [same]
    split <;> exact sound
  · refine kept.served.of_same rfl fun other installed => ?_
    obtain ⟨bridge, found, same⟩ := installed
    have reached := reads other
    split at reached
    · rename_i here
      subst here
      rw [show world.bridge? other = some bridge from found] at reached
      exact ⟨_, reached, same⟩
    · exact ⟨bridge, reached.trans found, same⟩
  · intro value
    have balanced := kept.balanced value
    have tables : (world.modifyBridge id fun bridge =>
        { bridge with active := bridge.active - 1 }).tableReferences.count value =
          world.tableReferences.count value := by
      cases found : world.bridge? id with
      | none => rw [World.modify_missing_bridge found]
      | some bridge =>
          exact Nat.add_right_cancel (World.count_tables_modify found
            (fun bridge => { bridge with active := bridge.active - 1 }) value)
    unfold Grasp.Balanced at balanced ⊢
    dsimp only at balanced ⊢
    rw [tables]
    exact balanced
  · intro other later found
    by_cases here : other = id
    · exact .inr (.inr (List.mem_cons.2 (.inl here)))
    · have reached := reads other
      rw [if_neg here] at reached
      rcases kept.cleared other later (reached.symm.trans found) with heldBefore | empty | waits
      · left
        rw [World.holds_bridge_iff] at heldBefore ⊢
        rw [reached]
        exact heldBefore
      · exact .inr (.inl empty)
      · exact .inr (.inr (List.mem_cons_of_mem id waits))
  · intro other
    have active := kept.active other
    rw [List.count_cons] at active
    dsimp only at active ⊢
    rw [reads]
    by_cases here : other = id
    · subst here
      cases found : world.bridge? other with
      | none => simp [found] at active
      | some bridge =>
          simp only [found, beq_self_eq_true, if_true, Option.elim_some] at active
          simp only [if_true, Option.map_some, Option.elim_some]
          omega
    · simpa [here, Ne.symm here] using active

/-- When the engine is torn down every bridge is to be taken down. -/
theorem Grasp.Kept.shutDown {world : World} {held : List Value} {left later calls : List BridgeId}
    (kept : Grasp.Kept ⟨world, held, left, calls⟩)
    (all : ∀ id bridge, world.bridge? id = some bridge → id ∈ later) :
    Grasp.Kept ⟨{ world with engine := .stopped world.engine.mode }, held, later, calls⟩ := by
  refine ⟨kept.distinct, kept.named, ?_, ?_, kept.balanced, ?_, kept.active⟩
  · intro id bridge found holds
    refine kept.sound id bridge found (World.holds_bridge_iff.2 ?_)
    rcases World.holds_bridge_iff.1 holds with named | ⟨other, reached, busy⟩
    · exact .inl named
    · refine .inr ⟨other, reached, busy.imp_left fun installed => ?_⟩
      cases installed.2
  · intro classId record found
    simp [Engine.stopped, Engine.start, Registry.empty, Registry.record?] at found
  · intro id bridge found
    exact .inr (.inr (all id bridge found))

end Kept

end ScriptSignal
