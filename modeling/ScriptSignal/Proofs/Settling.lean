import ScriptSignal.Proofs.Serving

/-!
# Settling the accounts of a request

Each task of a request turns what it was to give back into something that is given back
later, or takes it off the count of an object. An object that lost its last reference is on
the agenda or in the backlog until it is removed.
-/

namespace ScriptSignal

set_option autoImplicit false

def World.Awaited (world : World) (tasks : List Task) (id : ObjectId) : Prop :=
  .reclaim id ∈ tasks ∨ .remove id ∈ tasks ∨ id ∈ world.engine.backlog.items

def World.Ready (world : World) : Task → Prop
  | .release value => ∀ id, value = .object id → 0 < world.references id
  | .remove id => world.references id = 0
  | .bind id _ _ _ => ∃ bridge, world.bridge? id = some bridge
  | _ => True

/-- How a task keeps the accounts. Nothing is acquired any more, and nothing is lost. -/
structure Outcome.Settles (before : World) (task : Task) (outcome : Outcome) : Prop where
  balance : ∀ id, outcome.1.surplus id + task.carried.count (.object id) =
    before.surplus id + (outcome.2.flatMap Task.carried).count (.object id)
  fewer : ∀ id, outcome.1.references id ≤ before.references id
  doomed : ∀ id, .remove id ∈ outcome.2 → outcome.1.references id = 0
  awaited : ∀ id rest, outcome.1.Spent id →
    (before.Spent id → before.Awaited (task :: rest) id) →
      outcome.1.Awaited (outcome.2 ++ rest) id
  prompt : before.engine.mode = .immediate → before.engine.backlog.items = [] →
    outcome.1.engine.backlog.items = []

namespace World

section Tasks

variable {world after : World}

/-- The removal was to be brought about by the first task, or is so by another. -/
theorem Awaited.of_cons {rest : List Task} {task : Task} {id : ObjectId}
    (awaited : world.Awaited (task :: rest) id) :
    task = .reclaim id ∨ task = .remove id ∨ world.Awaited rest id := by
  rcases awaited with member | member | member
  · rcases List.mem_cons.1 member with same | later
    · exact .inl same.symm
    · exact .inr (.inr (.inl later))
  · rcases List.mem_cons.1 member with same | later
    · exact .inr (.inl same.symm)
    · exact .inr (.inr (.inr (.inl later)))
  · exact .inr (.inr (.inr (.inr member)))

theorem Awaited.append {tasks rest : List Task} {id : ObjectId} (awaited : world.Awaited rest id)
    (waits : id ∈ world.engine.backlog.items → id ∈ after.engine.backlog.items) :
    after.Awaited (tasks ++ rest) id := by
  rcases awaited with member | member | member
  · exact .inl (List.mem_append_right _ member)
  · exact .inr (.inl (List.mem_append_right _ member))
  · exact .inr (.inr (waits member))

theorem Upkeep.awaited (upkeep : Upkeep world after) {tasks rest : List Task} {id : ObjectId}
    (awaited : world.Awaited rest id) : after.Awaited (tasks ++ rest) id := by
  apply awaited.append
  intro member
  rw [upkeep.backlog]
  exact member

theorem Upkeep.prompt (upkeep : Upkeep world after) (empty : world.engine.backlog.items = []) :
    after.engine.backlog.items = [] := by
  rw [upkeep.backlog]
  exact empty

theorem not_spent_of_missing {id : ObjectId} (missing : world.engine.heap.get? id = none) :
    ¬world.Spent id := by
  rintro ⟨object, found, -⟩
  rw [missing] at found
  cases found

/-- A task that takes no references off and neither reclaims nor removes an object. -/
theorem settles_of_upkeep {task : Task} {tasks : List Task} (upkeep : Upkeep world after)
    (follows : ∀ next ∈ tasks, next.Follows)
    (balance : ∀ id, after.surplus id + task.carried.count (.object id) =
      world.surplus id + (tasks.flatMap Task.carried).count (.object id))
    (same : ∀ id, after.references id = world.references id)
    (reclaims : ∀ id, task ≠ .reclaim id) (removes : ∀ id, task ≠ .remove id) :
    Outcome.Settles world task (after, tasks) where
  balance := balance
  fewer := fun id => (same id).le
  doomed := fun id member => (follows _ member).elim
  awaited := by
    intro id rest spent waits
    rcases (waits (upkeep.spent id spent)).of_cons with same | same | later
    · exact absurd same (reclaims id)
    · exact absurd same (removes id)
    · exact upkeep.awaited later
  prompt := fun _ => upkeep.prompt

theorem settles_emit {task : Task} {tasks : List Task} (event : Event)
    (follows : ∀ next ∈ tasks, next.Follows) (carried : task.carried = tasks.flatMap Task.carried)
    (reclaims : ∀ id, task ≠ .reclaim id) (removes : ∀ id, task ≠ .remove id) :
    Outcome.Settles world task (world.emit event, tasks) := by
  apply settles_of_upkeep (upkeep_emit world event) follows
  · intro id
    rw [carried, surplus_emit]
  · exact fun _ => rfl
  · exact reclaims
  · exact removes

theorem settles_nothing {task : Task} {tasks : List Task} (follows : ∀ next ∈ tasks, next.Follows)
    (balance : ∀ id, task.carried.count (.object id) =
      (tasks.flatMap Task.carried).count (.object id))
    (reclaims : ∀ id, task ≠ .reclaim id) (removes : ∀ id, task ≠ .remove id) :
    Outcome.Settles world task (world, tasks) := by
  apply settles_of_upkeep (.refl world) follows
  · intro id
    rw [balance id]
  · exact fun _ => rfl
  · exact reclaims
  · exact removes

/-- Once a count is written, the other objects are spent or not as before. -/
theorem spent_recount {id : ObjectId} {object : Object} {count : Nat} {other : ObjectId}
    (apart : other ≠ id) (spent : (world.recount id object count).Spent other) :
    world.Spent other := by
  obtain ⟨held, found, none⟩ := spent
  have kept : (world.recount id object count).engine.heap.get? other =
      world.engine.heap.get? other := Heap.get_put_other _ apart _
  rw [kept] at found
  exact ⟨held, found, none⟩

theorem references_recount {id : ObjectId} {object : Object}
    (found : world.engine.heap.get? id = some object) (count : Nat) (other : ObjectId) :
    (world.recount id object count).references other =
      if other = id then count else world.references other :=
  references_put other found _

theorem settles_release_object {id : ObjectId} {object : Object} {count : Nat}
    (found : world.engine.heap.get? id = some object) (counted : object.refCount = count + 1) :
    Outcome.Settles world (.release (.object id)) (world.release (.object id)) := by
  have less : ∀ other, (world.recount id object count).references other ≤
      world.references other := by
    intro other
    rw [references_recount found]
    split
    · rename_i same
      rw [same, references_of_get id found]
      omega
    · exact Nat.le_refl _
  have balance : ∀ other, (world.recount id object count).surplus other
      + [Value.object id].count (.object other) = world.surplus other := by
    intro other
    rw [recount, surplus_recount other found count, count_object, counted]
    split <;> omega
  have elsewhere : ∀ other rest, other ≠ id → (world.recount id object count).Spent other →
      (world.Spent other → world.Awaited (.release (.object id) :: rest) other) →
      world.Awaited rest other := by
    intro other rest apart spent waits
    rcases (waits (spent_recount apart spent)).of_cons with same | same | later
    · cases same
    · cases same
    · exact later
  rcases release_cases found counted with ⟨-, same⟩ | ⟨-, mode, same⟩ | ⟨more, same⟩
  · rw [same]
    refine ⟨?_, less, ?_, ?_, fun _ empty => empty⟩
    · intro other
      simpa [Task.carried] using balance other
    · simp
    · intro other rest spent waits
      by_cases here : other = id
      · exact .inl (by simp [here])
      · apply (elsewhere other rest here spent waits).append
        exact fun member => member
  · rw [same]
    refine ⟨?_, less, by simp, ?_, ?_⟩
    · intro other
      have surplus : ((world.recount id object count).postpone id).surplus other =
          (world.recount id object count).surplus other := rfl
      rw [surplus]
      simpa [Task.carried] using balance other
    · intro other rest spent waits
      by_cases here : other = id
      · exact .inr (.inr (by simp [here]))
      · apply (elsewhere other rest here spent waits).append
        intro member
        rw [items_postpone]
        exact List.mem_append_left _ member
    · intro immediate
      rw [mode] at immediate
      cases immediate
  · rw [same]
    refine ⟨?_, less, by simp, ?_, fun _ empty => empty⟩
    · intro other
      simpa [Task.carried] using balance other
    · intro other rest spent waits
      by_cases here : other = id
      · obtain ⟨held, reached, none⟩ := spent
        have counts := references_of_get other reached
        rw [none, references_recount found, if_pos here] at counts
        exact absurd counts more
      · exact elsewhere other rest here spent waits

theorem settles_release {value : Value} (ready : world.Ready (.release value)) :
    Outcome.Settles world (.release value) (world.release value) := by
  cases value with
  | object id =>
      obtain ⟨object, count, found, counted⟩ := object_of_references (ready id rfl)
      exact settles_release_object found counted
  | _ =>
      apply settles_nothing
      · simp
      · intro id
        simp [Task.carried]
      · simp
      · simp

theorem settles_drop (tidy : world.Tidy) (held : StrongRef) :
    Outcome.Settles world (.drop held) (world.dropReference held) := by
  unfold dropReference
  rw [if_pos tidy.running]
  apply settles_emit
  · simp [Task.Follows]
  · rfl
  · simp
  · simp

theorem references_set_slot (id : ObjectId) (value : Value) (classId : ClassId)
    (key : Option Key) : (world.setSlot value classId key).references id = world.references id := by
  rcases set_slot_cases world value classId key with
    ⟨same, -⟩ | ⟨place, object, slot, -, found, -, same⟩
  · rw [same]
  · rw [same, references_put id found]
    split
    · rename_i here
      rw [here, references_of_get place found]
    · rfl

theorem references_bind_handle (id : ObjectId) (bridge : BridgeId) (handle : Value)
    (key : Option Key) :
    (world.bindHandle bridge handle key).references id = world.references id := by
  rcases bind_handle_cases world bridge handle key with same | ⟨held, -, same⟩
  · rw [same]
  · rw [same]
    exact references_set_slot id handle held.classId key

theorem references_finalize_signal (id : ObjectId) (bridge : BridgeId) (handle : Value) :
    (world.finalizeSignal bridge handle).1.references id = world.references id := by
  have unbound := @references_bind_handle world id bridge handle none
  rcases finalize_signal_cases world bridge handle with
    ⟨same, -⟩ | ⟨key, state, -, -, same⟩ | ⟨key, -, -, same⟩
  · rw [same]
    rfl
  · rw [same]
    exact unbound
  · rw [same]
    exact unbound

theorem references_run_finalizer (tidy : world.Tidy) (id place : ObjectId) :
    (world.runFinalizer place).1.references id = world.references id := by
  rcases run_finalizer_cases tidy place with same | ⟨bridge, same⟩
  · rw [same]
  · rw [same]
    exact references_finalize_signal id bridge _

/-- An object that need not be reclaimed, because it is gone or referenced again. -/
theorem settles_reclaim_unspent {id : ObjectId} (upkeep : Upkeep world after)
    (surplus : ∀ other, after.surplus other = world.surplus other)
    (references : ∀ other, after.references other = world.references other)
    (unspent : ¬world.Spent id) : Outcome.Settles world (.reclaim id) (after, []) where
  balance := by
    intro other
    simp [surplus other, Task.carried]
  fewer := fun other => (references other).le
  doomed := by simp
  awaited := by
    intro other rest spent waits
    have before := upkeep.spent other spent
    rcases (waits before).of_cons with same | same | later
    · cases same
      exact absurd before unspent
    · cases same
    · exact upkeep.awaited later
  prompt := fun _ => upkeep.prompt

/-- The finalizer runs, and the object is removed after what the finalizer gave up. -/
theorem settles_reclaim_spent (tidy : world.Tidy) {id : ObjectId}
    (last : world.references id = 0) :
    Outcome.Settles world (.reclaim id)
      ((world.runFinalizer id).1, (world.runFinalizer id).2 ++ [.remove id]) := by
  obtain ⟨upkeep, gives, balance⟩ := run_finalizer_law tidy id
  refine ⟨?_, ?_, ?_, ?_, fun _ => upkeep.prompt⟩
  · intro other
    simp [balance other, Task.carried]
  · exact fun other => (references_run_finalizer tidy other id).le
  · intro other member
    rcases List.mem_append.1 member with early | final
    · exact absurd rfl ((gives _ early).not_remove other)
    · cases List.mem_singleton.1 final
      exact (references_run_finalizer tidy id id).trans last
  · intro other rest spent waits
    rcases (waits (upkeep.spent other spent)).of_cons with same | same | later
    · cases same
      exact .inr (.inl (by simp))
    · cases same
    · exact upkeep.awaited later

theorem settles_reclaim (tidy : world.Tidy) (id : ObjectId) :
    Outcome.Settles world (.reclaim id) (world.reclaim id) := by
  unfold reclaim
  cases found : world.engine.heap.get? id with
  | none =>
      exact settles_reclaim_unspent (.refl world) (fun _ => rfl) (fun _ => rfl)
        (not_spent_of_missing found)
  | some object =>
      dsimp only
      split
      · rename_i last
        exact settles_reclaim_spent tidy ((references_of_get id found).trans last)
      · rename_i revived
        apply settles_reclaim_unspent (upkeep_emit world _) (fun _ => rfl) fun _ => rfl
        rintro ⟨held, reached, last⟩
        cases found.symm.trans reached
        exact revived last

theorem references_without {place : ObjectId} (id : ObjectId) :
    (world.without place).references id = if id = place then 0 else world.references id := by
  unfold references without
  dsimp only
  by_cases same : id = place
  · subst same
    simp
  · rw [Heap.get_remove_other _ same, if_neg same]

theorem count_objects_without {place : ObjectId} {object : Object} (id : ObjectId)
    (found : world.engine.heap.get? place = some object) :
    (world.without place).objectReferences.count (.object id) + object.owned.count (.object id) =
      world.objectReferences.count (.object id) := by
  unfold objectReferences without Heap.remove
  rw [Array.toList_setIfInBounds]
  have moved := count_flat_map_set (place_of_get found) none
    (fun entry => entry.toList.flatMap Object.owned) (.object id)
  simpa using moved

theorem surplus_without {place : ObjectId} {object : Object} (id : ObjectId)
    (found : world.engine.heap.get? place = some object) (last : world.references place = 0) :
    (world.without place).surplus id = world.surplus id + object.owned.count (.object id) := by
  have fewer := count_objects_without id found
  have references : (world.without place).references id = world.references id := by
    rw [references_without]
    split
    · rename_i same
      rw [same, last]
    · rfl
  have classes : (world.without place).classReferences = world.classReferences := rfl
  have tables : (world.without place).tableReferences = world.tableReferences := rfl
  have client : (world.without place).clientReferences = world.clientReferences := rfl
  unfold surplus tally
  rw [references, classes, tables, client]
  omega

theorem carried_releases (values : List Value) :
    (values.map Task.release).flatMap Task.carried = values := by
  induction values with
  | nil => rfl
  | cons value rest induction => simp [Task.carried, induction]

theorem remove_object_cases (world : World) (id : ObjectId) :
    world.engine.heap.get? id = none ∧ world.removeObject id = (world, []) ∨
      ∃ object, world.engine.heap.get? id = some object ∧
        world.removeObject id =
          ((world.without id).emit (.reclaimed id),
            (world.engine.order.arrange id object.owned).map .release) := by
  unfold removeObject
  cases found : world.engine.heap.get? id with
  | none => exact .inl ⟨rfl, rfl⟩
  | some object => exact .inr ⟨object, rfl, rfl⟩

theorem awaited_remove_object {id other : ObjectId} {rest : List Task}
    (spent : (world.removeObject id).1.Spent other)
    (waits : world.Spent other → world.Awaited (.remove id :: rest) other) :
    (world.removeObject id).1.Awaited ((world.removeObject id).2 ++ rest) other := by
  rcases remove_object_cases world id with ⟨missing, same⟩ | ⟨object, found, same⟩
  · rw [same] at spent ⊢
    rcases (waits spent).of_cons with equal | equal | later
    · cases equal
    · cases equal
      exact absurd spent (not_spent_of_missing missing)
    · exact later
  · rw [same] at spent ⊢
    obtain ⟨held, reached, last⟩ := spent
    by_cases here : other = id
    · subst here
      have missing : (world.without other).engine.heap.get? other = none :=
        Heap.get_remove_same _ other
      exact absurd ⟨held, reached, last⟩ (not_spent_of_missing missing)
    · have kept : (world.without id).engine.heap.get? other = world.engine.heap.get? other :=
        Heap.get_remove_other _ here
      have before : world.Spent other := ⟨held, kept.symm.trans reached, last⟩
      rcases (waits before).of_cons with equal | equal | later
      · cases equal
      · cases equal
        exact absurd rfl here
      · exact later.append fun member => member

theorem settles_remove {id : ObjectId} (ready : world.Ready (.remove id)) :
    Outcome.Settles world (.remove id) (world.removeObject id) := by
  have awaited := fun other rest => @awaited_remove_object world id other rest
  rcases remove_object_cases world id with ⟨missing, same⟩ | ⟨object, found, same⟩
  · rw [same] at awaited ⊢
    exact ⟨by simp [Task.carried], fun _ => Nat.le_refl _, by simp, awaited, fun _ empty => empty⟩
  · rw [same] at awaited ⊢
    refine ⟨?_, ?_, ?_, awaited, fun _ empty => empty⟩
    · intro other
      rw [carried_releases, surplus_emit, surplus_without other found ready,
        (world.engine.order.perm id object.owned).count_eq]
      simp [Task.carried]
    · intro other
      change (world.without id).references other ≤ _
      rw [references_without]
      split <;> omega
    · intro other member
      obtain ⟨value, -, equal⟩ := List.mem_map.1 member
      cases equal

theorem settles_drain (count : Nat) :
    Outcome.Settles world (.drain count) (world.drain count) := by
  unfold drain
  split
  · rename_i id backlog taken
    have items := Backlog.items_eq_cons_of_next taken
    refine ⟨?_, fun _ => Nat.le_refl _, by simp, ?_, ?_⟩
    · intro other
      have same : ({ world with engine.backlog := backlog } : World).surplus other =
          world.surplus other := rfl
      simp [same, Task.carried]
    · intro other rest spent waits
      rcases waits spent with member | member | member
      · exact .inl (by simp at member; simp [member])
      · exact .inr (.inl (by simp at member; simp [member]))
      · rw [items] at member
        rcases List.mem_cons.1 member with same | waiting
        · exact .inl (by simp [same])
        · exact .inr (.inr waiting)
    · intro _ empty
      rw [items] at empty
      cases empty
  · split
    · apply settles_emit
      · simp
      · rfl
      · simp
      · simp
    · apply settles_nothing
      · simp
      · exact fun _ => rfl
      · simp
      · simp

theorem settles_report_collection (before : Nat) :
    Outcome.Settles world (.reportCollection before) (world.reportCollection before) := by
  unfold reportCollection
  dsimp only
  split
  · apply settles_emit
    · simp [Task.Follows]
    · rfl
    · simp
    · simp
  · apply settles_nothing
    · simp [Task.Follows]
    · exact fun _ => rfl
    · simp
    · simp

theorem settles_bind (tidy : world.Tidy) {id : BridgeId} {route : Route} {handle : Value}
    {link : Option StrongRef} (ready : world.Ready (.bind id route handle link)) :
    Outcome.Settles world (.bind id route handle link)
      (world.bindSignal id route handle link) := by
  obtain ⟨bridge, found⟩ := ready
  rw [bind_signal_eq found]
  have inserted := upkeep_modify_states world id
    (fun states sound => Slab.sound_insert sound (⟨none, link⟩ : SignalState))
    fun states => Slab.capacity_le_insert states _
  have bound := inserted.trans (upkeep_bind_handle _ id handle (some bridge.states.nextKey))
  apply settles_of_upkeep (bound.trans (upkeep_emit _ _))
  · simp [Task.Follows]
  · intro other
    have values : (⟨none, link⟩ : SignalState).values = link.toList.map StrongRef.value := rfl
    rw [surplus_emit, surplus_bind_handle,
      surplus_insert_state other found (tidy.sound id bridge found), values]
    simp [Task.carried]
  · intro other
    exact @references_bind_handle
      (world.modifyStates id fun states => states.insert ⟨none, link⟩) other id handle
      (some bridge.states.nextKey)
  · simp
  · simp

theorem settles_end_call (tidy : world.Tidy) (id : BridgeId) :
    Outcome.Settles world (.endCall id) (world.endCall id) := by
  have upkeep := upkeep_activity world id (· - 1)
  unfold endCall
  rw [settle_bridge_of_tidy (upkeep.tidy tidy)]
  apply settles_of_upkeep upkeep (by simp)
  · intro other
    rw [surplus_activity other id (· - 1)]
    simp [Task.carried]
  · exact fun _ => rfl
  · simp
  · simp

theorem settles_handle (tidy : world.Tidy) {task : Task} (native : task.Native)
    (ready : world.Ready task) : Outcome.Settles world task (world.handle task) := by
  have idle : task.carried = [] → (∀ id, task ≠ .reclaim id) → (∀ id, task ≠ .remove id) →
      Outcome.Settles world task (world, []) := by
    intro carried reclaims removes
    exact settles_nothing (by simp) (by simp [carried]) reclaims removes
  cases task with
  | release value => exact settles_release ready
  | drop held => exact settles_drop tidy held
  | reclaim id => exact settles_reclaim tidy id
  | remove id => exact settles_remove ready
  | drain count => exact settles_drain count
  | reportCollection before => exact settles_report_collection before
  | report event =>
      apply settles_emit
      · simp
      · rfl
      · simp
      · simp
  | bind id route handle link => exact settles_bind tidy ready
  | endCall id => exact settles_end_call tidy id
  | settle id =>
      simp only [handle, settle_bridge_of_tidy tidy]
      exact idle rfl (by simp) (by simp)
  | answer reply => exact idle rfl (by simp) (by simp)
  | finish label => exact idle rfl (by simp) (by simp)
  | enter body receiver arguments purpose => exact native.elim
  | leave body purpose => exact native.elim
  | perform step => exact native.elim
  | iterate times steps => exact native.elim

theorem due_handle {task : Task} (tidy : world.Tidy) (native : task.Native)
    (ready : world.Ready task) (asks : ∀ reply, task ≠ .answer reply) (due : List Value) :
    (world.handle task).2.foldl Task.dueAfter due = Task.dueAfter due task := by
  cases task with
  | release value =>
      cases value with
      | object id =>
          obtain ⟨object, count, found, counted⟩ := object_of_references (ready id rfl)
          rcases release_cases found counted with ⟨-, same⟩ | ⟨-, -, same⟩ | ⟨-, same⟩
          · rw [handle, same]
            rfl
          · rw [handle, same]
            rfl
          · rw [handle, same]
            rfl
      | _ => rfl
  | drop held =>
      simp only [handle, dropReference, tidy.running, if_true]
      rfl
  | reclaim id =>
      simp only [handle, reclaim]
      split
      · rfl
      · split
        · obtain ⟨-, gives, -⟩ := run_finalizer_law tidy id
          rw [List.foldl_append, due_of_gives_back gives]
          rfl
        · rfl
  | remove id =>
      simp only [handle, removeObject]
      split
      · rfl
      · apply due_of_gives_back
        intro next member
        obtain ⟨value, -, rfl⟩ := List.mem_map.1 member
        trivial
  | drain count =>
      simp only [handle, drain]
      split <;> rfl
  | reportCollection before => rfl
  | report event => rfl
  | bind id route handle link =>
      obtain ⟨bridge, found⟩ := ready
      simp only [World.handle, bind_signal_eq found]
      exact values_ok route handle
  | endCall id =>
      have upkeep := upkeep_activity world id (· - 1)
      simp only [handle, endCall, settle_bridge_of_tidy (upkeep.tidy tidy)]
      rfl
  | settle id =>
      simp only [handle, settle_bridge_of_tidy tidy]
      rfl
  | answer reply => exact absurd rfl (asks reply)
  | finish label => rfl
  | enter body receiver arguments purpose => exact native.elim
  | leave body purpose => exact native.elim
  | perform step => exact native.elim
  | iterate times steps => exact native.elim

end Tasks

end World

end ScriptSignal
