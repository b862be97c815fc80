import ScriptSignal.Proofs.Leaks
import ScriptSignal.Proofs.Sweeping
import ScriptSignal.Proofs.Waiting

/-!
# A cascade takes the garbage and nothing else

A task lowers counts, finalizes an object, or removes one. What was given back so far and
what is still to be given back is always what was given back in the first place and what the
objects held that were finalized or removed. So only garbage is finalized. When nothing is
left to do and nothing waits, no object without references remains, so all garbage is gone.
-/

namespace ScriptSignal

set_option autoImplicit false

structure Outcome.Lowers (before : World) (task : Task) (outcome : Outcome)
    (given : ObjectId → Nat) : Prop where
  lowered : World.Lowered before outcome.1 given
  balance : ∀ id, given id + (outcome.2.flatMap Task.carried).count (.object id) =
    task.carried.count (.object id)
  kept : ∀ id, .remove id ∉ outcome.2

namespace World

/-- What is left of a world once some references were given back and everything that came of
it is over. -/
structure Swept (before : World) (given : List Value) (dead : Finset ObjectId) (after : World) :
    Prop where
  /-- Nothing is removed but garbage, and all of it. -/
  garbage : before.graph.Garbage (fun id => given.count (.object id)) dead
  live : ∀ id ∈ dead, before.isAlive (.object id) = true
  removed : ∀ id ∈ dead, after.isAlive (.object id) = false
  /-- The others keep all that they are, but for the references from what was removed. -/
  survives : ∀ id object, id ∉ dead → before.engine.heap.get? id = some object →
    before.graph.heldBy dead id + given.count (.object id) < object.refCount ∧
      after.engine.heap.get? id = some { object with
        refCount := object.refCount
          - (before.graph.heldBy dead id + given.count (.object id)) }
  missing : ∀ id, before.engine.heap.get? id = none → after.engine.heap.get? id = none
  bound : ∀ bridge id, id ∉ dead →
    after.boundState bridge (.object id) = before.boundState bridge (.object id)
  /-- The states that are gone are those of removed handles. -/
  states : ∀ bridge key state, after.state? bridge key = some state ↔
    before.state? bridge key = some state ∧
      ∀ id ∈ dead, before.boundState bridge (.object id) ≠ .ok (key, state)
  total : after.engine.finalized = before.engine.finalized + dead.card
  setting : SameSetting before after
  paired : after.Paired

/-- Two ways through a cascade end alike, in whatever order references were given back. -/
theorem Swept.agree {before after other : World} {given : List Value}
    {dead more : Finset ObjectId} (swept : before.Swept given dead after)
    (also : before.Swept given more other) : dead = more ∧
      (∀ id, other.engine.heap.get? id = after.engine.heap.get? id) ∧
      (∀ bridge id, id ∉ dead →
        other.boundState bridge (.object id) = after.boundState bridge (.object id)) ∧
      ∀ bridge key, other.state? bridge key = after.state? bridge key := by
  have same := swept.garbage.unique also.garbage
  subst same
  refine ⟨rfl, ?_, ?_, ?_⟩
  · intro id
    cases found : before.engine.heap.get? id with
    | none => rw [swept.missing id found, also.missing id found]
    | some object =>
        by_cases member : id ∈ dead
        · have first := swept.removed id member
          have second := also.removed id member
          simp only [isAlive, object?, Value.object?, Option.bind_some,
            Option.isSome_eq_false_iff, Option.isNone_iff_eq_none] at first second
          rw [first, second]
        · rw [(swept.survives id object member found).2, (also.survives id object member found).2]
  · intro bridge id outside
    rw [swept.bound bridge id outside, also.bound bridge id outside]
  · intro bridge key
    apply Option.ext
    intro state
    rw [swept.states, also.states]

section Tasks

variable {world after : World}

theorem lowers_of_nothing {task : Task} {tasks : List Task}
    (lowered : Lowered world after fun _ => 0)
    (carried : tasks.flatMap Task.carried = task.carried) (kept : ∀ id, .remove id ∉ tasks) :
    Outcome.Lowers world task (after, tasks) fun _ => 0 where
  lowered := lowered
  balance := by
    intro id
    rw [carried]
    omega
  kept := kept

theorem lowers_release (value : Value) :
    Outcome.Lowers world (.release value) (world.release value)
      fun id => [value].count (.object id) := by
  have tasks : (world.release value).2.flatMap Task.carried = [] ∧
      ∀ id, .remove id ∉ (world.release value).2 := by
    cases value with
    | object id =>
        by_cases counted : 0 < world.references id
        · obtain ⟨object, count, found, last⟩ := object_of_references counted
          rcases release_cases found last with ⟨-, same⟩ | ⟨-, -, same⟩ | ⟨-, same⟩
          · simp [same, Task.carried]
          · simp [same]
          · simp [same]
        · obtain ⟨event, same⟩ := release_of_unreferenced (Nat.eq_zero_of_not_pos counted)
          simp [same]
    | _ => simp [release]
  refine ⟨lowered_release world value, ?_, tasks.2⟩
  intro id
  rw [tasks.1]
  rfl

theorem lowers_drain (count : Nat) :
    Outcome.Lowers world (.drain count) (world.drain count) fun _ => 0 := by
  unfold drain
  split
  · exact lowers_of_nothing (lowered_backlog world _) rfl (by simp)
  · split
    · exact lowers_of_nothing (lowered_emit world _) rfl (by simp)
    · exact lowers_of_nothing (.refl world) rfl (by simp)

theorem lowers_report_collection (before : Nat) :
    Outcome.Lowers world (.reportCollection before) (world.reportCollection before)
      fun _ => 0 := by
  unfold reportCollection
  dsimp only
  split
  · exact lowers_of_nothing (lowered_emit world _) rfl (by simp)
  · exact lowers_of_nothing (.refl world) rfl (by simp)

theorem lowers_end_call (tidy : world.Tidy) (id : BridgeId) :
    Outcome.Lowers world (.endCall id) (world.endCall id) fun _ => 0 := by
  have upkeep := upkeep_activity world id (· - 1)
  unfold endCall
  rw [settle_bridge_of_tidy (upkeep.tidy tidy)]
  exact lowers_of_nothing (lowered_activity world id (· - 1)) rfl (by simp)

/-- Every task but those that take an object out or bring a state in. -/
theorem lowers_handle (tidy : world.Tidy) {task : Task} (native : task.Native)
    (reclaims : ∀ id, task ≠ .reclaim id) (removes : ∀ id, task ≠ .remove id)
    (binds : ¬task.Binds) :
    ∃ given, Outcome.Lowers world task (world.handle task) given := by
  cases task with
  | release value => exact ⟨_, lowers_release value⟩
  | drop held =>
      simp only [handle, dropReference, tidy.running, if_true]
      exact ⟨_, lowers_of_nothing (lowered_emit world _) rfl (by simp)⟩
  | reclaim id => exact absurd rfl (reclaims id)
  | remove id => exact absurd rfl (removes id)
  | drain count => exact ⟨_, lowers_drain count⟩
  | reportCollection before => exact ⟨_, lowers_report_collection before⟩
  | report event => exact ⟨_, lowers_of_nothing (lowered_emit world event) rfl (by simp)⟩
  | bind id route handle link => exact absurd trivial binds
  | endCall id => exact ⟨_, lowers_end_call tidy id⟩
  | settle id =>
      simp only [handle, settle_bridge_of_tidy tidy]
      exact ⟨_, lowers_of_nothing (.refl world) rfl (by simp)⟩
  | answer reply => exact ⟨_, lowers_of_nothing (.refl world) rfl (by simp)⟩
  | finish label => exact ⟨_, lowers_of_nothing (.refl world) rfl (by simp)⟩
  | enter body receiver arguments purpose => exact native.elim
  | leave body purpose => exact native.elim
  | perform step => exact native.elim
  | iterate times steps => exact native.elim

/-- An object that has references again, or is gone, is not finalized. -/
theorem reclaim_cases (world : World) (id : ObjectId) :
    Outcome.Lowers world (.reclaim id) (world.reclaim id) (fun _ => 0) ∨
      ∃ object, world.engine.heap.get? id = some object ∧ object.refCount = 0 ∧
        world.reclaim id =
          ((world.runFinalizer id).1, (world.runFinalizer id).2 ++ [.remove id]) := by
  unfold reclaim
  cases found : world.engine.heap.get? id with
  | none => exact .inl (lowers_of_nothing (.refl world) rfl (by simp))
  | some object =>
      by_cases last : object.refCount = 0
      · exact .inr ⟨object, rfl, last, by simp [last]⟩
      · left
        simp only [last, if_false]
        exact lowers_of_nothing (lowered_emit world _) rfl (by simp)

end Tasks

end World

namespace Machine

/-- A cascade under way: what was given back and is still to be given back comes from the
outside or from objects that were finalized or removed, and only garbage was. -/
structure Sweeping (before : World) (given : List Value) (machine : Machine)
    (removed finalized : Finset ObjectId) (released : ObjectId → Nat) : Prop where
  calm : machine.Calm
  sweep : World.Sweep before machine.world removed finalized released
  accounts : ∀ id, released id + machine.carried.count (.object id) = given.count (.object id)
    + ∑ holder ∈ removed, (before.ownedBy holder).count (.object id)
    + ∑ holder ∈ finalized, (before.boundValues holder).count (.object id)
  unbinding : ∀ task ∈ machine.agenda, ¬task.Binds
  leaving : ∀ id, .remove id ∈ machine.agenda → id ∈ finalized
  left : ∀ id ∈ finalized, id ∈ removed ∨ .remove id ∈ machine.agenda
  sound : ∀ other, before.graph.Closed (fun id => given.count (.object id)) other →
    finalized ⊆ other

section Steps

variable {before : World} {given : List Value} {machine : Machine}
  {removed finalized : Finset ObjectId} {released : ObjectId → Nat} {task : Task}
  {rest : List Task}

theorem sweeping_start (calm : machine.Calm) (paired : machine.world.Paired)
    (unbinding : ∀ task ∈ machine.agenda, ¬task.Binds)
    (kept : ∀ id, .remove id ∉ machine.agenda) :
    machine.Sweeping machine.world machine.carried ∅ ∅ fun _ => 0 where
  calm := calm
  sweep := .refl paired
  accounts := by simp
  unbinding := unbinding
  leaving := fun id member => absurd member (kept id)
  left := by simp
  sound := by simp

theorem Sweeping.left_of_cons (sweeping : machine.Sweeping before given removed finalized released)
    (shape : machine.agenda = task :: rest) (removes : ∀ id, task ≠ .remove id) {id : ObjectId}
    (member : id ∈ finalized) : id ∈ removed ∨ .remove id ∈ rest := by
  rcases sweeping.left id member with taken | listed
  · exact .inl taken
  · rw [shape] at listed
    rcases List.mem_cons.1 listed with same | later
    · exact absurd same.symm (removes id)
    · exact .inr later

theorem Sweeping.unbinding_step
    (sweeping : machine.Sweeping before given removed finalized released)
    (shape : machine.agenda = task :: rest) : ∀ next ∈ machine.step.agenda, ¬next.Binds := by
  have native := sweeping.calm.native task (by simp [shape])
  have proceeds := World.proceeds_handle sweeping.calm.tidy native
  obtain ⟨agenda, -, -, -⟩ := step_native shape native
  intro next member binds
  rw [agenda] at member
  rcases List.mem_append.1 member with new | old
  · cases next with
    | bind id route handle link => exact proceeds.unbinding id route handle link new
    | _ => exact binds
  · exact sweeping.unbinding next (by simp [shape, old]) binds

theorem Sweeping.lower (sweeping : machine.Sweeping before given removed finalized released)
    (shape : machine.agenda = task :: rest) (removes : ∀ id, task ≠ .remove id)
    {lowered : ObjectId → Nat}
    (lowers : Outcome.Lowers machine.world task (machine.world.handle task) lowered) :
    machine.step.Sweeping before given removed finalized fun id => released id + lowered id := by
  have native := sweeping.calm.native task (by simp [shape])
  obtain ⟨agenda, world, -, -⟩ := step_native shape native
  refine ⟨sweeping.calm.step, (sweeping.sweep.lower lowers.lowered).register world, ?_,
    sweeping.unbinding_step shape, ?_, ?_, sweeping.sound⟩
  · intro id
    have accounts := sweeping.accounts id
    have balance := lowers.balance id
    simp only [carried, shape, agenda, List.flatMap_cons, List.flatMap_append,
      List.count_append] at accounts ⊢
    omega
  · intro id member
    rw [agenda] at member
    rcases List.mem_append.1 member with new | old
    · exact absurd new (lowers.kept id)
    · exact sweeping.leaving id (by simp [shape, old])
  · intro id member
    rw [agenda]
    rcases sweeping.left_of_cons shape removes member with taken | later
    · exact .inl taken
    · exact .inr (List.mem_append_right _ later)

theorem Sweeping.mem_of_closed
    (sweeping : machine.Sweeping before given removed finalized released) {id : ObjectId}
    {object : Object} (found : machine.world.engine.heap.get? id = some object)
    (last : object.refCount = 0) {other : Finset ObjectId}
    (closed : before.graph.Closed (fun id => given.count (.object id)) other) : id ∈ other := by
  obtain ⟨-, old, reached, counts, -⟩ := sweeping.sweep.found found
  have inside := sweeping.sound other closed
  have accounts := sweeping.accounts id
  have owned : ∑ holder ∈ removed, (before.ownedBy holder).count (.object id) ≤
      ∑ holder ∈ other, (before.ownedBy holder).count (.object id) :=
    Finset.sum_le_sum_of_subset (sweeping.sweep.within.trans inside)
  have bound : ∑ holder ∈ finalized, (before.boundValues holder).count (.object id) ≤
      ∑ holder ∈ other, (before.boundValues holder).count (.object id) :=
    Finset.sum_le_sum_of_subset inside
  have alive : before.isAlive (.object id) = true := by
    simp [World.isAlive, World.object?, Value.object?, reached]
  have few : before.references id ≤ before.graph.heldBy other id + given.count (.object id) := by
    rw [World.references_of_get id reached, World.held_by_eq]
    omega
  exact closed id alive few

/-- An object without references is finalized, and what it was bound to is given back. -/
theorem Sweeping.finalize (sweeping : machine.Sweeping before given removed finalized released)
    (paired : before.Paired) {id : ObjectId} (shape : machine.agenda = .reclaim id :: rest)
    {object : Object} (found : machine.world.engine.heap.get? id = some object)
    (last : object.refCount = 0)
    (same : machine.world.reclaim id =
      ((machine.world.runFinalizer id).1, (machine.world.runFinalizer id).2 ++ [.remove id])) :
    machine.step.Sweeping before given removed (insert id finalized) released := by
  have tidy := sweeping.calm.tidy
  obtain ⟨agenda, world, -, -⟩ := step_native shape trivial
  have handled : machine.world.handle (.reclaim id) = machine.world.reclaim id := rfl
  rw [handled, same] at agenda world
  dsimp only at agenda world
  have gives := (World.run_finalizer_law tidy id).2.1
  refine ⟨sweeping.calm.step, (sweeping.sweep.finalize tidy found).register world, ?_,
    sweeping.unbinding_step shape, ?_, ?_, ?_⟩
  · intro other
    have accounts := sweeping.accounts other
    have bound := sweeping.sweep.bound_values paired id
    have now : machine.step.carried =
        machine.world.boundValues id ++ rest.flatMap Task.carried := by
      rw [carried, agenda, List.flatMap_append, List.flatMap_append,
        World.carried_run_finalizer sweeping.sweep.paired tidy]
      simp [Task.carried]
    have earlier : machine.carried = rest.flatMap Task.carried := by
      simp [carried, shape, Task.carried]
    rw [now, List.count_append, bound]
    rw [earlier] at accounts
    by_cases member : id ∈ finalized
    · rw [if_pos member, Finset.insert_eq_self.2 member]
      simpa using accounts
    · rw [if_neg member, Finset.sum_insert member]
      omega
  · intro other member
    rw [agenda, List.append_assoc] at member
    rcases List.mem_append.1 member with new | old
    · exact absurd rfl ((gives _ new).not_remove other)
    · rcases List.mem_cons.1 old with equal | later
      · cases equal
        exact Finset.mem_insert_self id finalized
      · have listed : .remove other ∈ rest := later
        exact Finset.mem_insert_of_mem (sweeping.leaving other (by simp [shape, listed]))
  · intro other member
    rw [agenda]
    rcases Finset.mem_insert.1 member with equal | old
    · exact .inr (by simp [equal])
    · rcases sweeping.left_of_cons shape (by simp) old with taken | later
      · exact .inl taken
      · exact .inr (List.mem_append_right _ later)
  · intro other closed
    exact Finset.insert_subset (sweeping.mem_of_closed found last closed)
      (sweeping.sound other closed)

/-- A finalized object is taken out, and what it owned is given back. -/
theorem Sweeping.remove (sweeping : machine.Sweeping before given removed finalized released)
    {id : ObjectId} (shape : machine.agenda = .remove id :: rest) {object : Object}
    (found : machine.world.engine.heap.get? id = some object)
    (same : machine.world.removeObject id =
      ((machine.world.without id).emit (.reclaimed id),
        (machine.world.engine.order.arrange id object.owned).map .release)) :
    machine.step.Sweeping before given (insert id removed) finalized released := by
  obtain ⟨agenda, world, -, -⟩ := step_native shape trivial
  have handled : machine.world.handle (.remove id) = machine.world.removeObject id := rfl
  rw [handled, same] at agenda world
  dsimp only at agenda world
  have member := sweeping.leaving id (by simp [shape])
  obtain ⟨outside, old, reached, -, owned⟩ := sweeping.sweep.found found
  have taken := (sweeping.sweep.remove member found).lower (World.lowered_emit _ (.reclaimed id))
  refine ⟨sweeping.calm.step, taken.register world, ?_, sweeping.unbinding_step shape, ?_, ?_,
    sweeping.sound⟩
  · intro other
    have accounts := sweeping.accounts other
    have now : machine.step.carried.count (.object other) =
        (before.ownedBy id).count (.object other)
          + (rest.flatMap Task.carried).count (.object other) := by
      rw [carried, agenda, List.flatMap_append, World.carried_releases, List.count_append,
        (machine.world.engine.order.perm id object.owned).count_eq, owned,
        World.owned_by_of_get reached]
    have earlier : machine.carried = rest.flatMap Task.carried := by
      simp [carried, shape, Task.carried]
    rw [now, Finset.sum_insert outside]
    rw [earlier] at accounts
    omega
  · intro other listed
    rw [agenda] at listed
    rcases List.mem_append.1 listed with new | later
    · obtain ⟨value, -, equal⟩ := List.mem_map.1 new
      cases equal
    · exact sweeping.leaving other (by simp [shape, later])
  · intro other inside
    rw [agenda]
    rcases sweeping.left other inside with taken | listed
    · exact .inl (Finset.mem_insert_of_mem taken)
    · rw [shape] at listed
      rcases List.mem_cons.1 listed with equal | later
      · cases equal
        exact .inl (Finset.mem_insert_self _ removed)
      · exact .inr (List.mem_append_right _ later)

/-- An object that is gone was removed by this cascade, so it is not removed again. -/
theorem Sweeping.skip (sweeping : machine.Sweeping before given removed finalized released)
    {id : ObjectId} (shape : machine.agenda = .remove id :: rest)
    (missing : machine.world.engine.heap.get? id = none) :
    machine.step.Sweeping before given removed finalized released := by
  obtain ⟨agenda, world, -, -⟩ := step_native shape trivial
  have same : machine.world.handle (.remove id) = (machine.world, []) := by
    simp [World.handle, World.removeObject, missing]
  rw [same] at agenda world
  dsimp only at agenda world
  have member := sweeping.leaving id (by simp [shape])
  have taken : id ∈ removed := by
    by_contra outside
    obtain ⟨rekind, kept, -⟩ := sweeping.sweep.kept id outside
    obtain ⟨place, object, equal, found⟩ := World.object_of_alive (sweeping.sweep.live id member)
    cases equal
    rw [missing, found] at kept
    cases kept
  refine ⟨sweeping.calm.step, sweeping.sweep.register world, ?_, sweeping.unbinding_step shape,
    ?_, ?_, sweeping.sound⟩
  · intro other
    have accounts := sweeping.accounts other
    simpa [carried, shape, agenda, Task.carried] using accounts
  · intro other listed
    rw [agenda] at listed
    have later : .remove other ∈ rest := listed
    exact sweeping.leaving other (by simp [shape, later])
  · intro other inside
    rw [agenda]
    rcases sweeping.left other inside with early | listed
    · exact .inl early
    · rw [shape] at listed
      rcases List.mem_cons.1 listed with equal | later
      · cases equal
        exact .inl taken
      · exact .inr later

theorem Sweeping.step (sweeping : machine.Sweeping before given removed finalized released)
    (paired : before.Paired) : ∃ removed finalized released,
      machine.step.Sweeping before given removed finalized released := by
  cases shape : machine.agenda with
  | nil =>
      rw [step_of_nil shape]
      exact ⟨removed, finalized, released, sweeping⟩
  | cons task rest =>
      have native := sweeping.calm.native task (by simp [shape])
      have unbinding := sweeping.unbinding task (by simp [shape])
      by_cases reclaims : ∃ id, task = .reclaim id
      · obtain ⟨id, rfl⟩ := reclaims
        rcases machine.world.reclaim_cases id with lowers | ⟨object, found, last, same⟩
        · exact ⟨_, _, _, sweeping.lower shape (by simp) lowers⟩
        · exact ⟨_, _, _, sweeping.finalize paired shape found last same⟩
      by_cases removes : ∃ id, task = .remove id
      · obtain ⟨id, rfl⟩ := removes
        rcases World.remove_object_cases machine.world id with
          ⟨missing, -⟩ | ⟨object, found, same⟩
        · exact ⟨_, _, _, sweeping.skip shape missing⟩
        · exact ⟨_, _, _, sweeping.remove shape found same⟩
      have removing : ∀ id, task ≠ .remove id := fun id same => removes ⟨id, same⟩
      obtain ⟨lowered, lowers⟩ := World.lowers_handle sweeping.calm.tidy native
        (fun id same => reclaims ⟨id, same⟩) removing unbinding
      exact ⟨_, _, _, sweeping.lower shape removing lowers⟩

theorem Sweeping.run (sweeping : machine.Sweeping before given removed finalized released)
    (paired : before.Paired) (fuel : Nat) : ∃ removed finalized released,
      (machine.run fuel).Sweeping before given removed finalized released := by
  refine sweeping.calm.keeps (fun machine => ∃ removed finalized released,
    machine.Sweeping before given removed finalized released)
    ⟨removed, finalized, released, sweeping⟩ ?_ fuel
  rintro _ - ⟨_, _, _, sweeping⟩
  exact sweeping.step paired

/-- A cascade that is over has left no object without references. -/
theorem Sweeping.swept (sweeping : machine.Sweeping before given removed finalized released)
    (idle : machine.agenda = []) (unspent : ∀ id, ¬machine.world.Spent id) :
    before.Swept given removed machine.world := by
  have all : finalized = removed := by
    apply Finset.Subset.antisymm _ sweeping.sweep.within
    intro id member
    rcases sweeping.left id member with taken | listed
    · exact taken
    · simp [idle] at listed
  subst all
  have spread : ∀ id, released id =
      before.graph.heldBy finalized id + given.count (.object id) := by
    intro id
    have accounts := sweeping.accounts id
    rw [World.held_by_eq]
    simp only [carried, idle, List.flatMap_nil, List.count_nil] at accounts
    omega
  have kept : ∀ id, id ∉ finalized → machine.world.engine.heap.get? id =
      (before.engine.heap.get? id).map fun object => { object with
        refCount := object.refCount
          - (before.graph.heldBy finalized id + given.count (.object id)) } := by
    intro id outside
    obtain ⟨rekind, found, same⟩ := sweeping.sweep.kept id outside
    rw [found, spread id]
    simp only [same outside]
  have enough : ∀ id object, id ∉ finalized → before.engine.heap.get? id = some object →
      before.graph.heldBy finalized id + given.count (.object id) < object.refCount := by
    intro id object outside found
    by_contra few
    have now := kept id outside
    rw [found, Option.map_some] at now
    exact unspent id ⟨_, now, Nat.sub_eq_zero_of_le (Nat.le_of_not_lt few)⟩
  refine ⟨⟨?_, sweeping.sound⟩, sweeping.sweep.live, ?_, ?_, ?_, ?_, sweeping.sweep.tables,
    sweeping.sweep.total, sweeping.sweep.setting, sweeping.sweep.paired⟩
  · intro id alive few
    by_contra outside
    obtain ⟨place, object, equal, found⟩ := World.object_of_alive alive
    cases equal
    have counts : before.graph.count id = object.refCount := World.references_of_get id found
    have more := enough id object outside found
    dsimp only at few
    omega
  · intro id member
    simp [World.isAlive, World.object?, Value.object?, sweeping.sweep.gone id member]
  · intro id object outside found
    refine ⟨enough id object outside found, ?_⟩
    rw [kept id outside, found]
    rfl
  · intro id missing
    by_cases member : id ∈ finalized
    · exact sweeping.sweep.gone id member
    · rw [kept id member, missing]
      rfl
  · intro bridge id outside
    apply World.bound_state_ext
    intro key state
    rw [sweeping.sweep.bound]
    exact and_iff_right outside

/-- Where nothing waits in the end, no object without references is left. -/
theorem Attended.unspent (attended : machine.Attended) (idle : machine.agenda = [])
    (empty : machine.world.engine.backlog.items = []) (id : ObjectId) :
    ¬machine.world.Spent id := by
  intro spent
  have awaited := attended.awaited id spent
  rw [World.Awaited, idle, empty] at awaited
  simp at awaited

theorem swept_of_run {ended : Machine} (attended : machine.Attended)
    (paired : machine.world.Paired) (unbinding : ∀ task ∈ machine.agenda, ¬task.Binds)
    (kept : ∀ id, .remove id ∉ machine.agenda) {fuel : Nat} (ran : machine.run fuel = ended)
    (idle : ended.agenda = []) (empty : ended.world.engine.backlog.items = []) :
    ∃ dead, machine.world.Swept machine.carried dead ended.world := by
  have start := sweeping_start attended.calm paired unbinding kept
  obtain ⟨removed, finalized, released, sweeping⟩ := start.run paired fuel
  have later := attended.run fuel
  rw [ran] at sweeping later
  exact ⟨removed, sweeping.swept idle (later.unspent idle empty)⟩

end Steps

end Machine

end ScriptSignal
