import ScriptSignal.Proofs.Trails

/-!
# Objects that are revived in their finalizer

The references of an object are counted before its finalizer runs and not again before it is
removed. An object that is revived in between is removed all the same, and one that is revived
and given up again is finalized again within its finalizer. What a finalizer does to the
references of its object decides when an object is removed without references and finalized
once.
-/

namespace ScriptSignal

set_option autoImplicit false

namespace Machine

structure Removal (machine : Machine) (past : List Machine) (id : ObjectId) (object : Object) :
    Prop where
  /-- It had no references when the reclaimer ran its finalizer. -/
  began : ∃ check earlier rest, past = since id past ++ check :: earlier ∧
    check.agenda = .reclaim id :: rest ∧ check.world.references id = 0
  /-- It has those that were taken since and not given back. -/
  balance : object.refCount + returned id (since id past) = taken id (machine :: since id past)
  unreferenced : object.refCount = 0 ↔
    taken id (machine :: since id past) = returned id (since id past)

section Removals

variable {machine : Machine} {past : List Machine} {rest : List Task} {id : ObjectId}
  {object : Object}

/-- Nobody has a reference to an object that is removed if, and only if, whatever was taken
since its finalizer began was given back. -/
theorem removal_of_trail (inBounds : TrailInBounds machine past)
    (shape : machine.agenda = .remove id :: rest)
    (found : machine.world.engine.heap.get? id = some object) :
    Removal machine past id object := by
  have trail := inBounds.trail
  have listed : Task.remove id ∈ machine.agenda := by simp [shape]
  have begun := trail.begun listed
  obtain ⟨check, earlier, later, split, begins, spent, ending⟩ := trail.ending begun found
  have passing := (trail.earlier split).1.attained
  have balance := ending.balance passing begins spent found
  rw [World.references_of_get id found] at balance
  exact ⟨⟨check, earlier, later, split, begins, World.references_of_spent spent⟩, balance,
    by omega⟩

def makeFinalized (steps : List Step) : List Step :=
  [.act "reserve" (.classes .reserve) none,
    .define "define" ⟨0⟩ "Phoenix" default [] (.mk steps (.literal .undefined) none),
    .act "make" (.classes (.instantiate (.literal .undefined) ⟨0⟩)) (some "object")]

def releaseMade : Step := .act "release" (.object (.release (.register "object"))) none

/-- The finalizer keeps a reference to its object in a register, and the object is about to be
removed. -/
def revivedObject : Machine :=
  ((runAll 100 (start .immediate)
    (makeFinalized [.act "revive" (.object (.duplicate .self)) (some "kept")])).submit
      releaseMade).run 8

theorem attained_revived_object : revivedObject.Attained :=
  (((attained_start .immediate).run_all 100 (by decide)).submit rfl releaseMade).run 8

/-- An object is removed to which a register has a reference. -/
theorem removed_with_reference :
    revivedObject.Attained ∧ revivedObject.agenda.head? = some (.remove ⟨1⟩) ∧
      revivedObject.world.references ⟨1⟩ = 1 ∧
      revivedObject.world.client.registers.find? "kept" = some (.object ⟨1⟩) ∧
      revivedObject.step.world.isAlive (.object ⟨1⟩) = false :=
  ⟨attained_revived_object, rfl, rfl, rfl, rfl⟩

/-- The finalizer takes a reference to its object and gives it back. -/
def phoenix : List Step :=
  makeFinalized
    [.act "revive" (.object (.duplicate .self)) none,
      .act "give up" (.object (.release .self)) none]

def collectOnce : Step := .act "collect" (.object .collect) none

def waitingPhoenix : Machine := runAll 100 (start .deferred) (phoenix ++ [releaseMade])

def waitingPhoenixPast : List Machine :=
  followAll 100 (start .deferred) (phoenix ++ [releaseMade]) []

theorem trail_waiting_phoenix : Trail waitingPhoenix waitingPhoenixPast :=
  (Trail.start .deferred).run_all 100 (by decide)

def endingPhoenix : Machine := (waitingPhoenix.submit collectOnce).run 12

def endingPhoenixPast : List Machine :=
  follow 12 (waitingPhoenix.submit collectOnce) (waitingPhoenix :: waitingPhoenixPast)

theorem trail_ending_phoenix : Trail endingPhoenix endingPhoenixPast :=
  (trail_waiting_phoenix.submit rfl collectOnce).run 12

theorem trail_in_bounds_ending_phoenix : TrailInBounds endingPhoenix endingPhoenixPast :=
  trail_ending_phoenix.in_bounds rfl

theorem removal_of_ending_phoenix :
    taken ⟨1⟩ (endingPhoenix :: since ⟨1⟩ endingPhoenixPast) = 1 ∧
      returned ⟨1⟩ (since ⟨1⟩ endingPhoenixPast) = 1 ∧
      ∃ object, object.refCount = 0 ∧ Removal endingPhoenix endingPhoenixPast ⟨1⟩ object :=
  ⟨rfl, rfl, _, rfl, removal_of_trail trail_in_bounds_ending_phoenix rfl rfl⟩

end Removals

structure Delivery (past : List Machine) (id : ObjectId) : Prop where
  /-- Once at most if, and only if, it never runs it while the end of the object is under way. -/
  once : delivered id past ≤ 1 ↔
    ∀ passed ∈ past, passed.finalizes id = true → Task.remove id ∉ passed.agenda
  /-- So it does when the object does not wait in the backlog again and while its end is under
  way nobody takes a reference to it. -/
  spared : (∀ passed ∈ past, passed.finalizes id = true →
      id ∉ passed.world.engine.backlog.items) →
    (∀ passed ∈ past, Task.remove id ∈ passed.agenda →
      passed.step.world.references id ≤ passed.world.references id) →
    delivered id past ≤ 1

section Deliveries

variable {machine : Machine} {past : List Machine} {id : ObjectId}

theorem split_of_delivered (twice : 1 < delivered id past) :
    ∃ early passed late, past = early ++ passed :: late ∧ passed.finalizes id = true ∧
      ∃ check ∈ late, check.finalizes id = true := by
  induction past with
  | nil => exact absurd twice (Nat.not_lt_zero 1)
  | cons first past induction =>
      by_cases finds : first.finalizes id = true
      · have before : 0 < past.countP (finalizes id) := by
          rw [delivered, List.countP_cons_of_pos finds] at twice
          exact Nat.lt_of_succ_lt_succ twice
        exact ⟨[], first, past, rfl, finds, List.countP_pos_iff.1 before⟩
      · rw [delivered, List.countP_cons_of_neg finds] at twice
        obtain ⟨early, passed, late, split, later⟩ := induction twice
        exact ⟨first :: early, passed, late, by rw [split]; rfl, later⟩

/-- A second time comes only while the end of the object is under way since the first. -/
theorem Trail.delivered_le_one (trail : Trail machine past) :
    delivered id past ≤ 1 ↔
      ∀ passed ∈ past, passed.finalizes id = true → Task.remove id ∉ passed.agenda := by
  constructor
  · intro once passed member finds listed
    obtain ⟨early, late, rfl⟩ := List.append_of_mem member
    have before : 0 < delivered id late :=
      List.countP_pos_iff.2 ((trail.earlier rfl).1.begun listed)
    rw [delivered, List.countP_append, List.countP_cons_of_pos finds] at once
    rw [delivered] at before
    omega
  · intro apart
    apply Nat.le_of_not_lt
    intro twice
    obtain ⟨early, passed, late, split, finds, begun⟩ := split_of_delivered twice
    have passing := (trail.earlier split).1
    obtain ⟨rest, shape, object, found, last⟩ := finalizes_iff.1 finds
    obtain ⟨check, earlier, later, before, begins, spent, ending⟩ := passing.ending begun found
    obtain ⟨front, agenda⟩ :=
      ending.agenda (passing.earlier before).1.attained begins spent
    refine apart passed (by simp [split]) finds ?_
    simp [agenda]

/-- Where the object waits once only and nobody takes a reference to it, the reclaimer does not
come back to it. -/
theorem Trail.spared (trail : Trail machine past)
    (once : ∀ passed ∈ past, passed.finalizes id = true →
      id ∉ passed.world.engine.backlog.items)
    (untaken : ∀ passed ∈ past, Task.remove id ∈ passed.agenda →
      passed.step.world.references id ≤ passed.world.references id) :
    ∀ passed ∈ past, passed.finalizes id = true → Task.remove id ∉ passed.agenda := by
  intro passed member finds listed
  obtain ⟨early, late, split⟩ := List.append_of_mem member
  have passing := (trail.earlier split).1
  obtain ⟨rest, shape, object, found, last⟩ := finalizes_iff.1 finds
  obtain ⟨check, earlier, later, before, begins, spent, ending⟩ :=
    passing.ending (passing.begun listed) found
  have within : ∀ other ∈ late, other ∈ past := fun other here => by simp [split, here]
  have here : check ∈ late := by
    rw [before]
    simp
  have quiet := ending.quiet (passing.earlier before).1.attained begins spent
    (once check (within check here) (finalizes_iff.2 ⟨later, begins, spent⟩))
    fun other during => untaken other
      (within other (before ▸ List.mem_append_left _ during)) (ending.listed other during)
  obtain ⟨front, agenda, absent, -, -⟩ := quiet
  rw [shape] at agenda
  cases front with
  | nil => cases agenda
  | cons first front =>
      cases agenda
      exact absent List.mem_cons_self

/-- Whatever a client and scripts do, the reclaimer finalizes an object once, unless it comes to
it again within its own finalizer. -/
theorem delivery_of_trail (trail : Trail machine past) (id : ObjectId) : Delivery past id :=
  ⟨trail.delivered_le_one, fun once untaken =>
    trail.delivered_le_one.2 (trail.spared once untaken)⟩

/-- An object waits twice, and its finalizer begins a collection. -/
def collectsWithin : List Step :=
  makeFinalized [.act "collect within" (.object .collect) none] ++
    [releaseMade, .act "revive" (.object (.duplicate (.register "object"))) none, releaseMade,
      collectOnce]

def collectedWithin : Machine := runAll 100 (start .deferred) collectsWithin

def collectedWithinPast : List Machine := followAll 100 (start .deferred) collectsWithin []

/-- Within the finalizer of an object the finalizer of the same object is run again. -/
theorem delivered_again :
    Trail collectedWithin collectedWithinPast ∧ collectedWithin.agenda = [] ∧
      collectedWithin.world.engine.finalized = 1 ∧ delivered ⟨1⟩ collectedWithinPast = 2 :=
  ⟨(Trail.start .deferred).run_all 100 (by decide), rfl, rfl, rfl⟩

theorem delivery_of_ending_phoenix :
    delivered ⟨1⟩ endingPhoenixPast = 1 ∧ Delivery endingPhoenixPast ⟨1⟩ :=
  ⟨rfl, delivery_of_trail trail_ending_phoenix ⟨1⟩⟩

end Deliveries

end Machine

end ScriptSignal
