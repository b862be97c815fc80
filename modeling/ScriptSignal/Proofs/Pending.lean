import ScriptSignal.Proofs.Departures

/-!
# Objects that wait for their end

An object without references is in the backlog, or its end is on the agenda. Where objects wait
for a collection, what takes them out stands on the agenda before the report of a collection,
which was put there when the collection began. This holds however often an object comes by
references and loses them, in its own finalizer or in another.
-/

namespace ScriptSignal

set_option autoImplicit false

namespace World

variable {world after : World} {task : Task}

theorem Deed.backlog (deed : Deed world task after) :
    after.engine.backlog = world.engine.backlog ∨
      (∃ id, world.engine.mode = .deferred ∧
        after.engine.backlog = world.engine.backlog.defer id) ∨
      (∃ id, world.engine.backlog.next? = some (id, after.engine.backlog)) ∨
      after.engine.backlog = .empty := by
  cases deed with
  | gentle gentle => exact .inl gentle.backlog
  | shutDown label keep => exact .inr (.inr (.inr rfl))
  | remove id =>
      rcases remove_object_cases world id with ⟨-, same⟩ | ⟨object, -, same⟩
      · rw [same]
        exact .inl rfl
      · rw [same]
        exact .inl rfl
  | drain count =>
      unfold World.drain
      split
      · rename_i id backlog taken
        exact .inr (.inr (.inl ⟨id, taken⟩))
      · left
        dsimp only
        split <;> rfl
  | release value =>
      cases value with
      | object id =>
          by_cases held : 0 < world.references id
          · obtain ⟨object, count, found, counted⟩ := object_of_references held
            rcases release_cases found counted with ⟨-, same⟩ | ⟨-, mode, same⟩ | ⟨-, same⟩
            · rw [same]
              exact .inl rfl
            · rw [same]
              exact .inr (.inl ⟨id, mode, rfl⟩)
            · rw [same]
              exact .inl rfl
          · obtain ⟨event, same⟩ := release_of_unreferenced (Nat.eq_zero_of_not_pos held)
            rw [same]
            exact .inl rfl
      | _ => exact .inl rfl

theorem Deed.counted (deed : Deed world task after) (counted : world.engine.backlog.Counted) :
    after.engine.backlog.Counted := by
  rcases deed.backlog with same | ⟨id, -, same⟩ | ⟨id, taken⟩ | same
  · rw [same]
    exact counted
  · rw [same]
    exact Backlog.counted_defer counted id
  · exact Backlog.counted_next counted taken
  · rw [same]
    exact Backlog.counted_empty

theorem Deed.prompt (deed : Deed world task after) (immediate : world.engine.mode = .immediate)
    (empty : world.engine.backlog.items = []) : after.engine.backlog.items = [] := by
  rcases deed.backlog with same | ⟨id, deferred, -⟩ | ⟨id, taken⟩ | same
  · rw [same]
    exact empty
  · rw [immediate] at deferred
    cases deferred
  · rw [Backlog.items_eq_cons_of_next taken] at empty
    cases empty
  · rw [same]
    rfl

/-- Where nothing loses its last reference, what was awaited is awaited still. -/
theorem Gentle.awaited (gentle : Gentle world after) {tasks rest : List Task} {id : ObjectId}
    (awaited : world.Awaited rest id) : after.Awaited (tasks ++ rest) id := by
  apply awaited.append
  intro member
  rw [gentle.backlog]
  exact member

theorem awaited_release {value : Value} {rest : List Task} {id : ObjectId}
    (spent : (world.release value).1.Spent id)
    (waits : world.Spent id → world.Awaited (.release value :: rest) id) :
    (world.release value).1.Awaited ((world.release value).2 ++ rest) id := by
  have still : world.Spent id → world.Awaited rest id := by
    intro before
    rcases (waits before).of_cons with same | same | later
    · cases same
    · cases same
    · exact later
  cases value with
  | object place =>
      by_cases held : 0 < world.references place
      · obtain ⟨object, count, found, counted⟩ := object_of_references held
        exact (settles_release_object found counted).awaited id rest spent waits
      · obtain ⟨event, same⟩ := release_of_unreferenced (Nat.eq_zero_of_not_pos held)
        rw [same] at spent ⊢
        exact still spent
  | _ => exact still spent

end World

structure World.Cleared (world : World) : Prop where
  items : world.engine.backlog.items = []
  pending : world.engine.backlog.pending = 0
  referenced : ∀ id object, world.engine.heap.get? id = some object → 1 ≤ object.refCount

namespace Task

def Sweeps : Task → Prop
  | .reclaim _ | .remove _ | .drain _ => True
  | _ => False

def Concludes : Task → Prop
  | .reportCollection _ | .answer _ | .finish _ => True
  | _ => False

end Task

/-- What takes objects out has the report of a collection after it. -/
def Enclosed (tasks : List Task) : Prop :=
  ∀ early task late, tasks = early ++ task :: late → task.Sweeps →
    ∃ before, .reportCollection before ∈ late

section Enclosed

variable {tasks rest : List Task} {task : Task}

theorem enclosed_cons_iff : Enclosed (task :: rest) ↔
    (task.Sweeps → ∃ before, .reportCollection before ∈ rest) ∧ Enclosed rest := by
  constructor
  · intro enclosed
    refine ⟨enclosed [] task rest rfl, ?_⟩
    intro early next late shape
    exact enclosed (task :: early) next late (congrArg (task :: ·) shape)
  · rintro ⟨first, others⟩ early next late shape
    cases early with
    | nil =>
        cases shape
        exact first
    | cons head early =>
        cases shape
        exact others early next late rfl

theorem Enclosed.append (enclosed : Enclosed rest)
    (reported : ∀ next ∈ tasks, next.Sweeps → ∃ before, .reportCollection before ∈ rest) :
    Enclosed (tasks ++ rest) := by
  induction tasks with
  | nil => exact enclosed
  | cons first tasks induction =>
      rw [List.cons_append, enclosed_cons_iff]
      refine ⟨fun sweeps => ?_,
        induction fun next member => reported next (List.mem_cons_of_mem first member)⟩
      obtain ⟨before, member⟩ := reported first List.mem_cons_self sweeps
      exact ⟨before, List.mem_append_right _ member⟩

/-- What does not stand in the first part of a row stands in the second. -/
theorem split_later {early late : List Task} (same : tasks ++ rest = early ++ task :: late)
    (none : task ∉ tasks) : ∃ middle, early = tasks ++ middle ∧ rest = middle ++ task :: late := by
  rcases List.append_eq_append_iff.1 same with ⟨middle, first, second⟩ | ⟨middle, first, second⟩
  · exact ⟨middle, first, second⟩
  · cases middle with
    | nil =>
        rw [List.append_nil] at first
        exact ⟨[], by rw [first, List.append_nil], second.symm⟩
    | cons head middle =>
        cases second
        exact absurd (first ▸ List.mem_append_right early List.mem_cons_self) none

theorem not_sweeps_of_tame (tame : task.Tame) : ¬task.Sweeps := by
  cases task <;> first | exact tame.elim | exact fun sweeps => sweeps.elim

theorem not_report_of_tame (tame : task.Tame) (before : Nat) :
    task ≠ .reportCollection before := by
  rintro rfl
  exact tame

end Enclosed

namespace Machine

section Turns

variable {machine after : Machine} {rest : List Task} {task : Task}

def Placid (tasks : List Task) : Prop :=
  ∀ next ∈ tasks, ¬next.Sweeps ∧ ∀ before, next ≠ .reportCollection before

/-- Only a release, the reclaimer and a collection put anything else on the agenda. -/
inductive Stirs (machine : Machine) (rest : List Task) : Task → Machine → Prop
  | placid {task : Task} {after : Machine} {tasks : List Task}
      (agenda : after.agenda = tasks ++ rest) (placid : Placid tasks) :
      Stirs machine rest task after
  | release {value : Value} {after : Machine}
      (agenda : after.agenda = (machine.world.release value).2 ++ rest) :
      Stirs machine rest (.release value) after
  | reclaim {id : ObjectId} {after : Machine} {tasks : List Task}
      (spent : machine.world.Spent id) (agenda : after.agenda = tasks ++ .remove id :: rest)
      (placid : Placid tasks) : Stirs machine rest (.reclaim id) after
  | drain {count : Nat} {after : Machine}
      (agenda : after.agenda = (machine.world.drain count).2 ++ rest) :
      Stirs machine rest (.drain count) after
  | collect {label : String} {keep : Option String} {after : Machine}
      (agenda : after.agenda = machine.world.collect.2 ++ .finish label :: rest) :
      Stirs machine rest (.perform (.act label (.object .collect) keep)) after

theorem placid_of_drops {tasks : List Task}
    (drops : ∀ next ∈ tasks, ∃ held, next = Task.drop held) :
    Placid tasks := by
  intro next member
  obtain ⟨held, rfl⟩ := drops next member
  exact ⟨fun sweeps => sweeps, by simp⟩

theorem placid_of_tame {tasks : List Task} (tame : ∀ next ∈ tasks, next.Tame) : Placid tasks :=
  fun next member => ⟨not_sweeps_of_tame (tame next member), not_report_of_tame (tame next member)⟩

theorem Turn.stirs (turn : Turn machine rest task after) : Stirs machine rest task after := by
  cases turn with
  | moved moves bare spares world agenda callers => exact .placid agenda (placid_of_tame moves.tame)
  | steps steps scripted world agenda callers =>
      refine .placid agenda fun next member => ?_
      have here := scripted next member
      cases next <;> first | exact here.elim | exact ⟨fun sweeps => sweeps, by simp⟩
  | @enter body receiver arguments purpose _ world agenda callers =>
      refine .placid (agenda.trans (List.append_cons _ _ _)) fun next member => ?_
      rcases List.mem_append.1 member with step | last
      · obtain ⟨step, -, rfl⟩ := List.mem_map.1 step
        exact ⟨fun sweeps => sweeps, by simp⟩
      · cases List.mem_singleton.1 last
        exact ⟨fun sweeps => sweeps, by simp⟩
  | leave moves agenda callers => exact @Stirs.placid _ _ _ _ [] agenda (by simp [Placid])
  | release world agenda callers => exact .release agenda
  | drop world agenda callers =>
      refine .placid agenda fun next member => ?_
      cases World.task_of_drop_reference member
      exact ⟨fun sweeps => sweeps, by simp⟩
  | @reclaim id object _ found last world agenda callers =>
      exact .reclaim ⟨object, found, last⟩ agenda
        (placid_of_tame (@World.moves_run_finalizer True machine.world [] trivial id).tame)
  | @remove id _ world agenda callers =>
      refine .placid agenda fun next member => ?_
      obtain ⟨value, rfl⟩ := releases_of_remove_object machine.world id next member
      exact ⟨fun sweeps => sweeps, by simp⟩
  | drain world agenda callers => exact .drain agenda
  | collect world agenda callers => exact .collect agenda
  | settle world agenda callers =>
      exact .placid agenda (placid_of_drops (World.drops_of_settle_bridge _ _))
  | endCall world agenda callers =>
      exact .placid agenda (placid_of_drops (World.drops_of_settle_bridge _ _))
  | @shutDown label keep _ alone world agenda callers =>
      have shape : after.agenda =
          ((List.range machine.world.bridges.size).map (fun index => Task.settle ⟨index⟩)
            ++ [.answer .nothing, .finish label]) ++ rest := by
        rw [agenda, List.append_assoc]
        rfl
      refine .placid shape fun next member => ?_
      rcases List.mem_append.1 member with settle | final
      · obtain ⟨index, -, rfl⟩ := List.mem_map.1 settle
        exact ⟨fun sweeps => sweeps, by simp⟩
      · simp only [List.mem_cons, List.not_mem_nil, or_false] at final
        rcases final with rfl | rfl <;> exact ⟨fun sweeps => sweeps, by simp⟩

inductive Schedules (machine : Machine) (rest : List Task) (task : Task) (after : Machine) : Prop
  | going {tasks : List Task} (agenda : after.agenda = tasks ++ rest)
      (silent : ∀ before, .reportCollection before ∉ tasks)
      (sweeps : ∀ next ∈ tasks, next.Sweeps →
        task.Sweeps ∨ machine.world.engine.mode = .immediate)
  | begins {label : String} {keep : Option String} {tasks : List Task}
      (collects : task = .perform (.act label (.object .collect) keep))
      (agenda : after.agenda =
        tasks ++ .reportCollection machine.world.engine.finalized :: .finish label :: rest)
      (silent : ∀ before, .reportCollection before ∉ tasks)

theorem Turn.schedules (turn : Turn machine rest task after) :
    Schedules machine rest task after := by
  cases turn.stirs with
  | placid agenda placid =>
      exact .going agenda (fun before member => (placid _ member).2 before rfl)
        fun next member sweeps => absurd sweeps (placid next member).1
  | @release value _ agenda =>
      refine .going agenda ?_ ?_
      · intro before member
        obtain ⟨id, -, -, other⟩ := World.task_of_release member
        cases other
      · intro next member _
        obtain ⟨id, -, immediate, -⟩ := World.task_of_release member
        exact .inr immediate
  | @reclaim id _ tasks spent agenda placid =>
      refine .going (agenda.trans (List.append_cons _ _ _)) ?_ fun _ _ _ => .inl trivial
      intro before member
      rcases List.mem_append.1 member with early | final
      · exact (placid _ early).2 before rfl
      · cases List.mem_singleton.1 final
  | @drain count _ agenda =>
      refine .going agenda ?_ fun _ _ _ => .inl trivial
      intro before member
      rcases World.task_of_drain member with ⟨id, other⟩ | other <;> cases other
  | @collect label keep _ agenda =>
      cases pending : machine.world.engine.backlog.hasPending with
      | true =>
          refine @Schedules.begins _ _ _ _ label keep [.drain 0] rfl ?_ (by simp)
          rw [agenda]
          simp [World.collect, pending]
      | false =>
          refine @Schedules.begins _ _ _ _ label keep [] rfl ?_ (by simp)
          rw [agenda]
          simp [World.collect, pending]

end Turns

/-- The rest of the agenda waits for a collection that began at an earlier machine. -/
def WithinCollection (machine : Machine) (label : String) (rest : List Task) : Prop :=
  ∃ began keep, began.Attained ∧ began.world.engine.running = true ∧
    began.agenda = .perform (.act label (.object .collect) keep) :: rest ∧
    Inside rest began machine

structure Queued (machine : Machine) : Prop where
  counted : machine.world.engine.backlog.Counted
  prompt : machine.world.engine.mode = .immediate → machine.world.engine.backlog.items = []
  awaited : ∀ id, machine.world.Spent id → machine.world.Awaited machine.agenda id
  enclosed : machine.world.engine.mode = .deferred → Enclosed machine.agenda
  begun : ∀ early before late, machine.agenda = early ++ .reportCollection before :: late →
    ∃ label rest, late = .finish label :: rest ∧ machine.WithinCollection label rest

section Queued

variable {machine : Machine} {rest : List Task} {task : Task}

theorem queued_start (setting : Setting) : (start setting).Queued := by
  refine ⟨Backlog.counted_empty, fun _ => rfl, ?_, ?_, ?_⟩
  · rintro id ⟨object, found, -⟩
    simp [start, World.start, Engine.start, Heap.empty, Heap.get?] at found
  · intro _ early task late shape
    exact absurd shape.symm (by simp [start])
  · intro early before late shape
    exact absurd shape.symm (by simp [start])

theorem Queued.submit (queued : machine.Queued) (idle : machine.agenda = []) (step : Step) :
    (machine.submit step).Queued := by
  have agenda : (machine.submit step).agenda = [.perform step] := by
    simp [Machine.submit, idle]
  refine ⟨queued.counted, queued.prompt, ?_, ?_, ?_⟩
  · intro id spent
    have awaited := queued.awaited id spent
    rw [idle] at awaited
    have waits := @World.Awaited.append machine.world machine.world [.perform step] [] id awaited
      fun member => member
    rw [agenda]
    exact waits
  · intro _
    rw [agenda, enclosed_cons_iff]
    refine ⟨fun sweeps => sweeps.elim, ?_⟩
    intro early next late shape
    exact absurd shape.symm (by simp)
  · intro early before late shape
    rw [agenda] at shape
    have member : Task.reportCollection before ∈ [Task.perform step] := by simp [shape]
    simp at member

theorem WithinCollection.step {label : String} {later : List Task} {front : List Task}
    (within : machine.WithinCollection label later)
    (shape : machine.agenda = task :: (front ++ later)) :
    machine.step.WithinCollection label later := by
  obtain ⟨began, keep, attained, running, agenda, inside⟩ := within
  exact ⟨began, keep, attained, running, agenda, inside.step shape⟩

theorem Queued.begun_later (queued : machine.Queued) (shape : machine.agenda = task :: rest)
    {middle late : List Task} {before : Nat}
    (waits : rest = middle ++ .reportCollection before :: late) :
    ∃ label later, late = .finish label :: later ∧
      machine.step.WithinCollection label later := by
  have listed : machine.agenda = (task :: middle) ++ .reportCollection before :: late := by
    rw [shape, waits]
    rfl
  obtain ⟨label, later, rfl, within⟩ := queued.begun _ before late listed
  refine ⟨label, later, rfl, @WithinCollection.step _ task label later
    (middle ++ [.reportCollection before, .finish label]) within ?_⟩
  rw [listed, List.cons_append, List.append_assoc]
  rfl

theorem Queued.begun_step (queued : machine.Queued) (attained : machine.Attained)
    (shape : machine.agenda = task :: rest) {early late : List Task} {before : Nat}
    (waits : machine.step.agenda = early ++ .reportCollection before :: late) :
    ∃ label later, late = .finish label :: later ∧
      machine.step.WithinCollection label later := by
  cases (attained.kept.turn shape).schedules with
  | going agenda silent sweeps =>
      obtain ⟨middle, -, reached⟩ := split_later (agenda.symm.trans waits) (silent before)
      exact queued.begun_later shape reached
  | @begins label keep tasks collects agenda silent =>
      obtain ⟨middle, -, reached⟩ := split_later (agenda.symm.trans waits) (silent before)
      cases middle with
      | nil =>
          cases reached
          -- The collection begins with this very step.
          have running : machine.world.engine.running = true := by
            cases runs : machine.world.engine.running with
            | true => rfl
            | false =>
                have outlasts := attained.kept.outlasts_step runs
                  (.reportCollection machine.world.engine.finalized) (by simp [agenda])
                exact outlasts.elim
          refine ⟨label, rest, rfl, machine, keep, attained, running, collects ▸ shape, ?_⟩
          exact @Inside.step rest machine machine task [] .refl shape
      | cons first middle =>
          cases middle with
          | nil => cases reached
          | cons second middle =>
              cases reached
              exact queued.begun_later shape rfl

theorem Queued.enclosed_step (queued : machine.Queued) (attained : machine.Attained)
    (shape : machine.agenda = task :: rest) (deferred : machine.world.engine.mode = .deferred) :
    Enclosed machine.step.agenda := by
  have enclosed : Enclosed (task :: rest) := shape ▸ queued.enclosed deferred
  obtain ⟨first, others⟩ := enclosed_cons_iff.1 enclosed
  cases (attained.kept.turn shape).schedules with
  | going agenda silent sweeps =>
      rw [agenda]
      refine others.append fun next member sweep => ?_
      rcases sweeps next member sweep with before | immediate
      · exact first before
      · rw [deferred] at immediate
        cases immediate
  | @begins label keep tasks collects agenda silent =>
      rw [agenda]
      refine Enclosed.append ?_ fun _ _ _ => ⟨_, List.mem_cons_self⟩
      exact enclosed_cons_iff.2 ⟨fun sweeps => sweeps.elim,
        enclosed_cons_iff.2 ⟨fun sweeps => sweeps.elim, others⟩⟩

/-- An object without references is reclaimed, put into the backlog or removed by and by. -/
theorem Queued.awaited_step (queued : machine.Queued) (attained : machine.Attained)
    (shape : machine.agenda = task :: rest) {id : ObjectId}
    (spent : machine.step.world.Spent id) :
    machine.step.world.Awaited machine.step.agenda id := by
  have turn := attained.kept.turn shape
  have waits : machine.world.Spent id → machine.world.Awaited (task :: rest) id := by
    intro before
    rw [← shape]
    exact queued.awaited id before
  have onward : ∀ {tasks : List Task}, machine.world.Gentle machine.step.world →
      machine.step.agenda = tasks ++ rest →
      (machine.world.Spent id → task ≠ .reclaim id ∧ task ≠ .remove id) →
      machine.step.world.Awaited machine.step.agenda id := by
    intro tasks gentle agenda spares
    have before := gentle.spent id spent
    rw [agenda]
    rcases (waits before).of_cons with same | same | later
    · exact absurd same (spares before).1
    · exact absurd same (spares before).2
    · exact gentle.awaited later
  have deed := turn.deed
  generalize machine.step = after at turn deed onward spent ⊢
  cases turn with
  | moved moves bare spares world agenda callers =>
      exact onward (world ▸ (moves.moves [] [] []).gentle) agenda (spares id)
  | leave moves agenda callers =>
      exact @onward [] (moves.moves [] [] []).gentle agenda fun _ => by simp
  | steps steps scripted world agenda callers =>
      refine onward (world ▸ .refl _) agenda fun _ => ?_
      cases task <;> first | exact steps.elim | simp
  | enter world agenda callers =>
      exact onward (world ▸ .refl _) (agenda.trans (List.append_cons _ _ _)) fun _ => by simp
  | collect world agenda callers =>
      exact onward (world ▸ .refl _) (agenda.trans (List.append_cons _ _ _)) fun _ => by simp
  | drop world agenda callers =>
      refine onward ?_ agenda fun _ => by simp
      rw [world]
      exact World.gentle_of_engine (World.engine_drop_reference _ _)
  | settle world agenda callers =>
      refine onward ?_ agenda fun _ => by simp
      rw [world]
      exact World.gentle_of_engine (engine_settle_bridge _ _)
  | endCall world agenda callers =>
      refine onward ?_ agenda fun _ => by simp
      rw [world]
      exact World.gentle_of_engine (engine_settle_bridge _ _)
  | release world agenda callers =>
      rw [world] at spent ⊢
      rw [agenda]
      exact World.awaited_release spent waits
  | remove world agenda callers =>
      rw [world] at spent ⊢
      rw [agenda]
      exact World.awaited_remove_object spent waits
  | drain world agenda callers =>
      rw [world] at spent ⊢
      rw [agenda]
      exact (World.settles_drain _).awaited id rest spent waits
  | @reclaim place object _ found last world agenda callers =>
      have gentle : machine.world.Gentle after.world :=
        world ▸
        ((@World.moves_run_finalizer True machine.world [] trivial place).moves [] [] []).gentle
      rcases (waits (gentle.spent id spent)).of_cons with same | same | later
      · cases same
        exact .inr (.inl (by rw [agenda]; simp))
      · cases same
      · rw [agenda, List.append_cons]
        exact gentle.awaited later
  | shutDown alone world agenda callers =>
      obtain ⟨object, found, -⟩ := spent
      rw [world] at found
      simp [Engine.stopped, Engine.start, Heap.empty, Heap.get?] at found

theorem Queued.step (queued : machine.Queued) (attained : machine.Attained) :
    machine.step.Queued := by
  cases shape : machine.agenda with
  | nil =>
      rw [step_of_nil shape]
      exact queued
  | cons task rest =>
      have deed := (attained.kept.turn shape).deed
      refine ⟨deed.counted queued.counted, ?_, fun id => queued.awaited_step attained shape, ?_,
        fun early before late => queued.begun_step attained shape⟩
      · intro immediate
        rw [deed.mode] at immediate
        exact deed.prompt immediate (queued.prompt immediate)
      · intro deferred
        rw [deed.mode] at deferred
        exact queued.enclosed_step attained shape deferred

theorem Attained.queued (attained : machine.Attained) : machine.Queued :=
  attained.induction queued_start (fun _ attained queued => queued.step attained)
    fun _ step _ idle queued => queued.submit idle step

end Queued

inductive Emptying (machine : Machine) : Prop
  | waiting {front : List Task} {count before : Nat} {label : String}
      (agenda : machine.agenda =
        front ++ [.drain count, .reportCollection before, .finish label])
  | ending (concludes : ∀ task ∈ machine.agenda, task.Concludes)
      (empty : machine.world.engine.backlog.items = [])

section Emptying

variable {machine : Machine}

theorem Emptying.step_ending (attained : machine.Attained)
    (concludes : ∀ task ∈ machine.agenda, task.Concludes)
    (empty : machine.world.engine.backlog.items = []) : machine.step.Emptying := by
  cases shape : machine.agenda with
  | nil =>
      rw [step_of_nil shape]
      exact .ending concludes empty
  | cons task rest =>
      rw [shape] at concludes
      have first := concludes task List.mem_cons_self
      have others : ∀ next ∈ rest, next.Concludes := fun next member =>
        concludes next (List.mem_cons_of_mem task member)
      have backlog : machine.step.world.engine.backlog = machine.world.engine.backlog := by
        have deed := (attained.kept.turn shape).deed
        generalize machine.step.world = world at deed ⊢
        cases deed with
        | gentle gentle => exact gentle.backlog
        | _ => exact first.elim
      refine .ending ?_ (backlog ▸ empty)
      rw [step_of_cons shape]
      cases task with
      | reportCollection before =>
          intro next member
          rcases List.mem_append.1 member with answer | later
          · cases List.mem_singleton.1 answer
            trivial
          · exact others next later
      | answer reply =>
          obtain ⟨agenda, -, -⟩ := parts_answer { machine with agenda := rest } reply
          intro next (member : next ∈ (Machine.answer _ reply).agenda)
          rw [agenda] at member
          exact others next member
      | finish label =>
          simp only [carryOut, record]
          split <;> exact others
      | _ => exact first.elim

theorem Emptying.step (emptying : machine.Emptying) (attained : machine.Attained) :
    machine.step.Emptying := by
  cases emptying with
  | ending concludes empty => exact Emptying.step_ending attained concludes empty
  | @waiting front count before label agenda =>
      cases front with
      | cons first front =>
          obtain ⟨tasks, waits⟩ := attained.agenda_step agenda
          exact .waiting (waits.trans (List.append_assoc _ _ _).symm)
      | nil =>
          have stepped := step_of_cons agenda
          cases taken : machine.world.engine.backlog.next? with
          | some entry =>
              obtain ⟨id, backlog⟩ := entry
              refine @Emptying.waiting machine.step [.reclaim id] (count + 1) before label ?_
              rw [stepped]
              simp [carryOut, act, World.drain, taken]
          | none =>
              have engine : machine.step.world.engine = machine.world.engine := by
                rw [stepped]
                simp only [carryOut, act, World.drain, taken]
                split <;> rfl
              have left : machine.step.agenda = [.reportCollection before, .finish label] := by
                rw [stepped]
                simp [carryOut, act, World.drain, taken]
              refine .ending ?_ ?_
              · rw [left]
                simp [Task.Concludes]
              · rw [engine]
                exact Backlog.items_eq_nil_of_next taken

theorem Emptying.run (emptying : machine.Emptying) (attained : machine.Attained) (fuel : Nat) :
    (machine.run fuel).Emptying :=
  run_of_step Attained Emptying attained emptying (fun _ => Attained.step)
    (fun _ attained emptying => emptying.step attained) fuel

/-- A collection begins by emptying the backlog, if there is one. -/
theorem emptying_begin (attained : machine.Attained) (idle : machine.agenda = [])
    (label : String) (keep : Option String) :
    (machine.submit (.act label (.object .collect) keep)).step.Emptying := by
  obtain ⟨world, agenda⟩ := @step_submit_of_allowed machine label (.object .collect) keep idle rfl
  have concluded : ∀ {tasks : List Task},
      (machine.submit (.act label (.object .collect) keep)).step.agenda = tasks →
      (∀ next ∈ tasks, next.Concludes) →
      (machine.submit (.act label (.object .collect) keep)).step.world = machine.world →
      machine.world.engine.backlog.items = [] →
      (machine.submit (.act label (.object .collect) keep)).step.Emptying := by
    intro tasks shape concludes same empty
    exact .ending (shape ▸ concludes) (same ▸ empty)
  cases running : machine.world.engine.running with
  | false =>
      have refused : machine.world.perform machine.read (.object .collect) =
          machine.world.done (.refused .noEngine) := by
        simp [World.perform, Command.needsEngine, running]
      rw [refused] at world agenda
      refine concluded agenda (by simp [World.done, Task.Concludes]) world ?_
      rw [(attained.kept.stopped running).1]
      rfl
  | true =>
      have collected : machine.world.perform machine.read (.object .collect) =
          machine.world.collect := by
        simp [World.perform, running, World.performRunning, World.performObject]
      rw [collected] at world agenda
      cases pending : machine.world.engine.backlog.hasPending with
      | true =>
          refine @Emptying.waiting _ [] 0 machine.world.engine.finalized label ?_
          rw [agenda]
          simp [World.collect, pending]
      | false =>
          have nothing : machine.world.collect =
              (machine.world, [.reportCollection machine.world.engine.finalized]) := by
            simp [World.collect, pending]
          rw [nothing] at world agenda
          refine concluded agenda (by simp [Task.Concludes]) world ?_
          have counted := attained.queued.counted
          unfold Backlog.Counted at counted
          apply List.length_eq_zero_iff.1
          simpa [Backlog.hasPending, counted] using pending

end Emptying

/-- What waits for its end between the steps of a client, and when it meets it. -/
structure Pending (machine : Machine) : Prop where
  /-- Where objects are reclaimed at once, nothing is left to be done. -/
  immediate : machine.world.engine.mode = .immediate → machine.agenda = [] →
    machine.world.Cleared
  /-- Where they wait for a collection, they are in the backlog. -/
  deferred : machine.world.engine.mode = .deferred → machine.agenda = [] →
    ∀ id object, machine.world.engine.heap.get? id = some object → object.refCount = 0 →
      id ∈ machine.world.engine.backlog.items
  /-- Then an object leaves the heap, unless the engine comes to its end, and is counted as
  finalized only during a collection. -/
  during : machine.world.engine.mode = .deferred →
    machine.world.engine.finalized < machine.step.world.engine.finalized ∨
      machine.step.world.engine.running = true ∧
        (∃ id, machine.world.isAlive (.object id) = true ∧
          machine.step.world.isAlive (.object id) = false) →
    ∃ label rest front, machine.agenda = front ++ .finish label :: rest ∧
      machine.WithinCollection label rest
  /-- A collection that the client asks for leaves no object without references. -/
  swept : machine.agenda = [] → ∀ label keep ended,
    machine.CompletesInBounds (.act label (.object .collect) keep) ended → ended.world.Cleared

section Pending

variable {machine : Machine}

theorem Attained.cleared (attained : machine.Attained) (idle : machine.agenda = [])
    (empty : machine.world.engine.backlog.items = []) : machine.world.Cleared := by
  refine ⟨empty, ?_, ?_⟩
  · rw [attained.queued.counted, empty]
    rfl
  · intro id object found
    apply Nat.one_le_iff_ne_zero.2
    intro last
    rcases attained.queued.awaited id ⟨object, found, last⟩ with member | member | member
    · rw [idle] at member
      cases member
    · rw [idle] at member
      cases member
    · rw [empty] at member
      cases member

/-- While objects wait for a collection, one that is removed is removed within a collection. -/
theorem Attained.within_of_remove (attained : machine.Attained)
    (deferred : machine.world.engine.mode = .deferred) {id : ObjectId} {rest : List Task}
    (shape : machine.agenda = .remove id :: rest) :
    ∃ label later front, machine.agenda = front ++ .finish label :: later ∧
      machine.WithinCollection label later := by
  have enclosed : Enclosed (.remove id :: rest) := shape ▸ attained.queued.enclosed deferred
  obtain ⟨before, member⟩ := (enclosed_cons_iff.1 enclosed).1 trivial
  obtain ⟨early, late, split⟩ := List.append_of_mem member
  have listed : machine.agenda = (.remove id :: early) ++ .reportCollection before :: late := by
    rw [shape, split]
    rfl
  obtain ⟨label, later, rfl, within⟩ := attained.queued.begun _ before late listed
  refine ⟨label, later, (.remove id :: early) ++ [.reportCollection before], ?_, within⟩
  rw [listed, List.append_assoc]
  rfl

theorem Attained.during (attained : machine.Attained)
    (deferred : machine.world.engine.mode = .deferred)
    (leaves : machine.world.engine.finalized < machine.step.world.engine.finalized ∨
      machine.step.world.engine.running = true ∧
        (∃ id, machine.world.isAlive (.object id) = true ∧
          machine.step.world.isAlive (.object id) = false)) :
    ∃ label rest front, machine.agenda = front ++ .finish label :: rest ∧
      machine.WithinCollection label rest := by
  have running : machine.step.world.engine.running = true := by
    rcases leaves with grows | ⟨running, -⟩
    · cases runs : machine.step.world.engine.running with
      | true => rfl
      | false =>
          rw [(attained.step.kept.stopped runs).1] at grows
          exact absurd grows (Nat.not_lt_zero _)
    · exact running
  have departs : ¬World.SameObjects machine.world machine.step.world := by
    intro same
    rcases leaves with grows | ⟨-, id, alive, dead⟩
    · rw [same.finalized] at grows
      exact absurd grows (Nat.lt_irrefl _)
    · obtain ⟨object, found⟩ := Option.isSome_iff_exists.1 alive
      have missing : machine.step.world.engine.heap.get? id = none := by
        cases reached : machine.step.world.engine.heap.get? id with
        | none => rfl
        | some object =>
            have lives : (machine.step.world.engine.heap.get? id).isSome = false := dead
            rw [reached] at lives
            cases lives
      have inside : id.index < machine.world.size := Heap.index_lt_of_get found
      have gone := (same.gone id).1 ⟨Nat.lt_of_lt_of_le inside same.size, missing⟩
      have lost : machine.world.engine.heap.get? id = none := gone.2
      rw [show machine.world.engine.heap.get? id = some object from found] at lost
      cases lost
  rcases attained.deed with gentle | ⟨task, rest, shape, deed⟩
  · exact absurd gentle.same_objects departs
  · rcases deed.departs running with same | ⟨id, object, rfl, -⟩
    · exact absurd same departs
    · exact attained.within_of_remove deferred shape

/-- Whatever a client and scripts do, no object without references is forgotten. -/
theorem pending_of_attained (inBounds : machine.AttainedInBounds) : machine.Pending := by
  have attained := inBounds.attained
  refine ⟨?_, ?_, attained.during, ?_⟩
  · intro immediate idle
    exact attained.cleared idle (attained.queued.prompt immediate)
  · intro _ idle id object found last
    rcases attained.queued.awaited id ⟨object, found, last⟩ with member | member | member
    · rw [idle] at member
      cases member
    · rw [idle] at member
      cases member
    · exact member
  · intro idle label keep ended ends
    obtain ⟨fuel, ran, done⟩ := run_of_completes ends.completes
    have began : (machine.submit (.act label (.object .collect) keep)).step.Attained :=
      (attained.submit idle _).step
    have emptied := (emptying_begin attained idle label keep).run began fuel
    have attains := began.run fuel
    rw [ran] at emptied attains
    refine attains.cleared done ?_
    cases emptied with
    | waiting agenda =>
        rw [done] at agenda
        exact absurd agenda.symm (by simp)
    | ending concludes empty => exact empty

/-- An object waits that was revived once, and whose finalizer is to revive it again. -/
def waitingObject : Machine :=
  runAll 100 (start .deferred)
    [.act "reserve" (.classes .reserve) none,
      .define "define" ⟨0⟩ "Phoenix" default []
        (.mk
          [.act "revive" (.object (.duplicate .self)) none,
            .act "give up" (.object (.release .self)) none]
          (.literal .undefined) none),
      .act "make" (.classes (.instantiate (.literal .undefined) ⟨0⟩)) (some "object"),
      .act "release" (.object (.release (.register "object"))) none,
      .act "revive" (.object (.duplicate (.register "object"))) none,
      .act "release" (.object (.release (.register "object"))) none]

theorem attained_waiting_object : waitingObject.AttainedInBounds :=
  (attained_in_bounds_start .deferred).run_all rfl rfl

theorem pending_of_waiting_object :
    waitingObject.world.engine.backlog.items = [⟨1⟩, ⟨1⟩] ∧
      waitingObject.world.references ⟨1⟩ = 0 ∧
      (runAll 100 waitingObject [.act "collect" (.object .collect) none]).world.engine.finalized
        = 1 ∧ waitingObject.Pending :=
  ⟨rfl, rfl, rfl, pending_of_attained attained_waiting_object⟩

end Pending

end Machine

end ScriptSignal
